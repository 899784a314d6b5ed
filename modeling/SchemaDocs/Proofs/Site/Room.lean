import SchemaDocs.Proofs.Site.Plans
import SchemaDocs.Proofs.Storage.Standing

/-!
# Room in an output directory

A path blocks another one if that one leads through it, as through a directory. As long as an output
directory holds nothing but files whose paths do not block each other, there is room for one more
such file. So where writing files ends because one of them cannot be made, two of the paths block
each other, if no name is too long.
-/

namespace SchemaDocs

open FileSystem (Fits HasLeaf Leads Makes WithinLimits)

/-- The one path is that of a directory which the other leads through. -/
def Path.Blocks (left right : String) : Prop := ∃ rest, right = left ++ "/" ++ rest

theorem Path.blocks_iff {left right : String} :
    Blocks left right ↔ ∃ rest, rest ≠ [] ∧ Text.pieces '/' right = Text.pieces '/' left ++ rest := by
  constructor
  · rintro ⟨rest, rfl⟩
    exact ⟨_, Text.pieces_ne_nil '/' rest, Text.pieces_append_separator rfl left rest⟩
  · rintro ⟨rest, hne, hpieces⟩
    refine ⟨String.intercalate "/" rest, Text.pieces_injective '/' ?_⟩
    have hrest : Text.pieces '/' (String.intercalate "/" rest) = rest :=
      Text.pieces_intercalate rfl hne fun name hname =>
        Text.not_mem_of_mem_pieces (hpieces ▸ List.mem_append_right _ hname : name ∈ Text.pieces '/' right)
    rw [hpieces, Text.pieces_append_separator rfl, hrest]

namespace FileSystem

variable {fs next : FileSystem} {base last : String} {top front : List String}

private theorem exists_createDirectories_above (hbase : fs.Leads base top) (hfits : Fits base (front ++ [last]))
    (hway : ∀ way, way <+: front → fs.root.bareAt? (top ++ way) = none ∨ fs.root.bareAt? (top ++ way) = some (.directory [])) :
    ∃ next, fs.createDirectories (Path.directory ((front ++ [last]).foldl Path.join base)) = (.ok (), next) ∧
      fs.Makes next top front := by
  by_cases hfront : front = []
  · subst hfront
    have htop : fs.root.bareAt? (top ++ []) = some (.directory []) := by
      rw [List.append_nil]
      exact hbase.directory
    exact ⟨fs, createDirectories_directory_join hbase (hfits.segments last List.mem_cons_self) hfits.toWithinLimits,
      makes_of_directory htop⟩
  · have hfuel : front.length ≤ (front.foldl Path.join base).length + 1 := by
      have hle := Path.length_le_foldl_join hfits.of_append.segments base
      omega
    rw [hfits.directory hfront]
    exact exists_createAncestors hfuel hfront hbase hfits.of_append hway

private theorem Makes.directory_front (h : fs.Makes next top front)
    (htop : fs.root.bareAt? top = some (.directory [])) :
    next.root.bareAt? (top ++ front) = some (.directory []) := by
  by_cases hfront : front = []
  · rw [hfront, List.append_nil]
    exact h.directory htop
  · exact h.made front hfront (List.prefix_refl _)

end FileSystem

namespace Disk

variable {disk next start final : Disk} {top names front : List String} {paths plan : List String}
  {path last reason : String}

/-- Where nothing but directories is on the way to a file, it is written. The directories on the way are
made, and nothing else changes. -/
theorem exists_writeBytes (hleads : disk.files.Leads disk.output.root top) (hpath : isOutputPath path)
    (hunclaimed : path ∉ disk.output.written) (hlimits : WithinLimits disk.output.root (Text.pieces '/' path))
    (hpieces : Text.pieces '/' path = front ++ [last])
    (hway : ∀ way, way <+: front → disk.files.root.bareAt? (top ++ way) = none ∨
      disk.files.root.bareAt? (top ++ way) = some (.directory []))
    (hplain : disk.files.root.bareAt? (top ++ (front ++ [last])) ≠ some (.directory [])) (content : ByteArray) :
    ∃ middle files, disk.writeBytes path content =
        (.ok (), ⟨files, { disk.output with written := insertPath path disk.output.written }⟩) ∧
      disk.files.Makes middle top front ∧ middle.HasLeaf files (top ++ (front ++ [last])) (.file content) := by
  have hfits : Fits disk.output.root (front ++ [last]) := hpieces ▸ ⟨hlimits, fun _ => isSegment_of_mem_pieces hpath⟩
  have hlocation : disk.output.location path = (front ++ [last]).foldl Path.join disk.output.root := by
    rw [OutputDirectory.location, hpieces]
  obtain ⟨middle, hmiddle, hmade⟩ := FileSystem.exists_createDirectories_above hleads hfits hway
  rw [← hmade.kept_concat] at hplain
  obtain ⟨files, hfiles, hleaf⟩ :=
    FileSystem.exists_write (hmade.leads hleads) hfits (hmade.directory_front hleads.directory) hplain content
  refine ⟨middle, files, ?_, hmade, hleaf⟩
  rw [writeBytes, OutputDirectory.claim_eq_ok_iff.mpr ⟨hpath, hunclaimed, rfl⟩]
  have hsame : OutputDirectory.location { disk.output with written := insertPath path disk.output.written } path =
      disk.output.location path := rfl
  simp only [hsame, hlocation, hmiddle, hfiles]

/-- Whatever lies in the output directory is the file of one of some claimed paths, or a directory on
the way to one. -/
structure HoldsOnly (disk : Disk) (top paths : List String) : Prop where
  leads : disk.files.Leads disk.output.root top
  claimed : ∀ path ∈ paths, path ∈ disk.output.written
  directory : ∀ names, disk.files.root.bareAt? (top ++ names) = some (.directory []) →
    names = [] ∨ ∃ path ∈ paths, ∃ rest, rest ≠ [] ∧ Text.pieces '/' path = names ++ rest
  file : ∀ names content, disk.files.root.bareAt? (top ++ names) = some (.file content) →
    ∃ path ∈ paths, names = Text.pieces '/' path

namespace HoldsOnly

theorem mono (h : disk.HoldsOnly top paths) {more : List String} (hpaths : paths ⊆ more)
    (hclaimed : ∀ path ∈ more, path ∈ disk.output.written) : disk.HoldsOnly top more where
  leads := h.leads
  claimed := hclaimed
  directory names hnames := (h.directory names hnames).imp_right fun ⟨path, hpath, hrest⟩ => ⟨path, hpaths hpath, hrest⟩
  file names content hnames :=
    let ⟨path, hpath, hsame⟩ := h.file names content hnames
    ⟨path, hpaths hpath, hsame⟩

private theorem isFree (h : disk.HoldsOnly top paths) (hnew : path ∉ paths)
    (hfree : ∀ other ∈ paths, ¬ Path.Blocks other path ∧ ¬ Path.Blocks path other) :
    (∀ way, way <+: Text.pieces '/' path → disk.files.root.bareAt? (top ++ way) = none ∨
      disk.files.root.bareAt? (top ++ way) = some (.directory [])) ∧
      disk.files.root.bareAt? (top ++ Text.pieces '/' path) = none := by
  have hfile (way : List String) (hway : way <+: Text.pieces '/' path) (content : ByteArray) :
      disk.files.root.bareAt? (top ++ way) ≠ some (.file content) := by
    intro hcontent
    obtain ⟨other, hother, rfl⟩ := h.file way content hcontent
    obtain ⟨rest, hrest⟩ := hway
    by_cases hnil : rest = []
    · rw [hnil, List.append_nil] at hrest
      exact hnew (Text.pieces_injective '/' hrest ▸ hother)
    · exact (hfree other hother).1 (Path.blocks_iff.mpr ⟨rest, hnil, hrest.symm⟩)
  constructor
  · intro way hway
    rcases disk.files.root.bareAt?_cases (top ++ way) with hnone | hdirectory | ⟨content, hcontent⟩
    · exact .inl hnone
    · exact .inr hdirectory
    · exact absurd hcontent (hfile way hway content)
  · rcases disk.files.root.bareAt?_cases (top ++ Text.pieces '/' path) with hnone | hdirectory | ⟨content, hcontent⟩
    · exact hnone
    · rcases h.directory _ hdirectory with hnil | ⟨other, hother, rest, hne, hrest⟩
      · exact absurd hnil (Text.pieces_ne_nil '/' path)
      · exact absurd (Path.blocks_iff.mpr ⟨rest, hne, hrest⟩) (hfree other hother).2
    · exact absurd hcontent (hfile _ (List.prefix_refl _) content)

private theorem concat (h : disk.HoldsOnly top paths) {content : ByteArray} {middle files : FileSystem}
    (hpieces : Text.pieces '/' path = front ++ [last]) (hunclaimed : path ∉ disk.output.written)
    (hmade : disk.files.Makes middle top front)
    (hplain : middle.root.bareAt? (top ++ (front ++ [last])) ≠ some (.directory []))
    (hleaf : middle.HasLeaf files (top ++ (front ++ [last])) (.file content)) :
    HoldsOnly ⟨files, { disk.output with written := insertPath path disk.output.written }⟩ top (path :: paths) where
  leads := by
    refine (hmade.leads h.leads).mono hleaf.workingDirectory fun place hplace => ?_
    rw [hleaf.bareAt, if_neg, hplace]
    rintro rfl
    exact hplain hplace
  claimed other hother := by
    rw [(insertPath_perm hunclaimed).mem_iff]
    exact List.mem_cons.mpr ((List.mem_cons.mp hother).imp_right (h.claimed other))
  directory names hnames := by
    rw [hleaf.bareAt] at hnames
    split at hnames
    · cases hnames
    · by_cases hway : names ≠ [] ∧ names <+: front
      · obtain ⟨-, rest, hrest⟩ := hway
        refine .inr ⟨path, List.mem_cons_self, rest ++ [last], by simp, ?_⟩
        rw [hpieces, ← hrest, List.append_assoc]
      · rw [hmade.kept_below hway] at hnames
        exact (h.directory names hnames).imp_right fun ⟨other, hother, hrest⟩ =>
          ⟨other, List.mem_cons_of_mem _ hother, hrest⟩
  file names held hnames := by
    rw [hleaf.bareAt] at hnames
    split at hnames
    · rename_i hsame
      exact ⟨path, List.mem_cons_self, by rw [hpieces, List.append_cancel_left hsame]⟩
    · by_cases hway : names ≠ [] ∧ names <+: front
      · rw [hmade.made names hway.1 hway.2] at hnames
        cases hnames
      · rw [hmade.kept_below hway] at hnames
        obtain ⟨other, hother, hsame⟩ := h.file names held hnames
        exact ⟨other, List.mem_cons_of_mem _ hother, hsame⟩

/-- A file that no path blocks is written, if no name is too long, and the directory holds one file more. -/
theorem exists_writeBytes (h : disk.HoldsOnly top paths) (hpath : isOutputPath path)
    (hunclaimed : path ∉ disk.output.written) (hlimits : WithinLimits disk.output.root (Text.pieces '/' path))
    (hfree : ∀ other ∈ paths, ¬ Path.Blocks other path ∧ ¬ Path.Blocks path other) (content : ByteArray) :
    ∃ next, disk.writeBytes path content = (.ok (), next) ∧ next.HoldsOnly top (path :: paths) ∧
      next.output.root = disk.output.root := by
  obtain ⟨hway, hvacant⟩ := h.isFree (fun hmem => hunclaimed (h.claimed path hmem)) hfree
  obtain ⟨front, last, hpieces⟩ := (List.eq_nil_or_concat' (Text.pieces '/' path)).resolve_left (Text.pieces_ne_nil '/' path)
  rw [hpieces] at hway hvacant
  have hplain : disk.files.root.bareAt? (top ++ (front ++ [last])) ≠ some (.directory []) := by
    rw [hvacant]
    exact (Option.some_ne_none _).symm
  obtain ⟨middle, files, hwritten, hmade, hleaf⟩ := Disk.exists_writeBytes h.leads hpath hunclaimed
    hlimits hpieces (fun way hbefore => hway way (hbefore.trans (List.prefix_append _ _))) hplain content
  refine ⟨_, hwritten, h.concat hpieces hunclaimed hmade ?_ hleaf, rfl⟩
  rwa [hmade.kept_concat]

theorem of_completes (h : start.HoldsOnly top paths) (hcompletes : start.Completes plan final)
    (hroom : ∀ path ∈ plan, WithinLimits start.output.root (Text.pieces '/' path))
    (hfree : ∀ left ∈ plan ++ paths, ∀ right ∈ plan ++ paths, ¬ Path.Blocks left right) :
    final.HoldsOnly top (plan ++ paths) ∧ final.output.root = start.output.root := by
  obtain ⟨journal, rfl, hjournal⟩ := hcompletes
  induction journal generalizing start paths with
  | nil =>
    obtain rfl := Except.ok.inj hjournal
    exact ⟨h, rfl⟩
  | cons write journal ih =>
    obtain ⟨path, content⟩ := write
    obtain ⟨middle, hwrite, hrest⟩ := writeAll_cons_eq_ok_iff.mp hjournal
    have hholds := holds_of_writeBytes hwrite
    obtain ⟨hpath, hrooms⟩ := List.forall_mem_cons.mp hroom
    have hothers (other : String) (hother : other ∈ paths) : ¬ Path.Blocks other path ∧ ¬ Path.Blocks path other :=
      ⟨hfree other (List.mem_append_right _ hother) path List.mem_cons_self,
        hfree path List.mem_cons_self other (List.mem_append_right _ hother)⟩
    obtain ⟨next, hnext, honly, hroot⟩ := h.exists_writeBytes hholds.accepted hholds.unclaimed hpath hothers content
    obtain rfl : middle = next := (Prod.mk.inj (hwrite.symm.trans hnext)).2
    have hperm : (journal.map Prod.fst ++ path :: paths).Perm (path :: journal.map Prod.fst ++ paths) := List.perm_middle
    obtain ⟨hfinal, hfinalRoot⟩ := ih honly hrest (hroot ▸ hrooms) fun left hleft right hright =>
      hfree left (hperm.mem_iff.mp hleft) right (hperm.mem_iff.mp hright)
    exact ⟨hfinal.mono hperm.subset fun path hmem => hfinal.claimed path (hperm.mem_iff.mpr hmem), hfinalRoot.trans hroot⟩

/-- Where writing files ends because one of them cannot be made, two of the paths block each other. -/
theorem exists_blocks (h : start.HoldsOnly top paths)
    (hroom : ∀ path ∈ plan, WithinLimits start.output.root (Text.pieces '/' path))
    (hhalts : start.Halts plan (.failed reason) final) :
    ∃ left ∈ plan ++ paths, ∃ right ∈ plan ++ paths, Path.Blocks left right := by
  by_contra hblocks
  have hfree (left : String) (hleft : left ∈ plan ++ paths) (right : String) (hright : right ∈ plan ++ paths) :
      ¬ Path.Blocks left right := fun hblock => hblocks ⟨left, hleft, right, hright, hblock⟩
  obtain ⟨rfl, hwritten, hhalt⟩ := hhalts
  rename_i journal middle path content rest
  have hsubset : journal.map Prod.fst ++ paths ⊆ journal.map Prod.fst ++ path :: rest ++ paths := by
    rw [List.append_assoc]
    exact List.append_subset.mpr ⟨List.subset_append_left _ _, fun _ hmem => by simp [hmem]⟩
  have hmem : path ∈ journal.map Prod.fst ++ path :: rest ++ paths := by simp
  obtain ⟨honly, hroot⟩ := h.of_completes ⟨journal, rfl, hwritten⟩
    (fun other hother => hroom other (List.mem_append_left _ hother))
    fun left hleft right hright => hfree left (hsubset hleft) right (hsubset hright)
  have hends := middle.ends_writeBytes path content
  rw [hhalt] at hends
  cases hends with
  | failed hpath hunclaimed =>
    obtain ⟨next, hnext, -⟩ := honly.exists_writeBytes hpath hunclaimed (hroot ▸ hroom path (by simp))
      (fun other hother => ⟨hfree other (hsubset hother) path hmem, hfree path hmem other (hsubset hother)⟩) content
    rw [hhalt] at hnext
    cases (Prod.mk.inj hnext).1

end HoldsOnly

end Disk

end SchemaDocs
