import Mathlib.Data.String.Basic
import SchemaDocs.Proofs.Site.Room
import SchemaDocs.Proofs.Storage.Outside

/-!
# Files in any order

The directories of a file are made when the first file that needs them is written. So what is in the way
of a file depends on the files before it. But if all files of a journal can be written in one order, what
stands there in the end bounds whatever can be in the way in another one: the files can be written in any
order, and come to the same. For the same reason they can be written again, and nothing changes.
-/

namespace SchemaDocs

open FileSystem (Leads WithinLimits)

namespace FileSystem

variable {fs next bound : FileSystem} {root : Tree} {place result top names : List String} {base : String}

/-- Where there is a directory or a file there is one in the other file system too. -/
structure Within (fs bound : FileSystem) : Prop where
  workingDirectory : fs.workingDirectory = bound.workingDirectory
  directory : ∀ place, fs.root.bareAt? place = some (.directory []) → bound.root.bareAt? place = some (.directory [])
  file : ∀ place content, fs.root.bareAt? place = some (.file content) →
    ∃ held, bound.root.bareAt? place = some (.file held)

theorem Within.refl (fs : FileSystem) : fs.Within fs := ⟨rfl, fun _ => id, fun _ content hplace => ⟨content, hplace⟩⟩

private theorem Within.free (h : fs.Within bound) (hplace : bound.root.bareAt? place = some (.directory [])) :
    fs.root.bareAt? place = none ∨ fs.root.bareAt? place = some (.directory []) := by
  rcases fs.root.bareAt?_cases place with hnone | hdirectory | ⟨content, hcontent⟩
  · exact .inl hnone
  · exact .inr hdirectory
  · obtain ⟨held, hheld⟩ := h.file place content hcontent
    rw [hplace] at hheld
    cases hheld

private theorem Within.plain (h : fs.Within bound) {held : ByteArray}
    (hplace : bound.root.bareAt? place = some (.file held)) :
    fs.root.bareAt? place ≠ some (.directory []) := by
  intro hdirectory
  rw [h.directory place hdirectory] at hplace
  cases hplace

private theorem Within.makes (h : fs.Within bound) (hmade : fs.Makes next top names)
    (hway : ∀ way, way <+: names → bound.root.bareAt? (top ++ way) = some (.directory [])) : next.Within bound where
  workingDirectory := hmade.workingDirectory.trans h.workingDirectory
  directory place hplace := by
    by_cases hmadeHere : ∃ way, way ≠ [] ∧ way <+: names ∧ place = top ++ way
    · obtain ⟨way, -, hprefix, rfl⟩ := hmadeHere
      exact hway way hprefix
    · rw [hmade.kept place fun way hne hprefix hsame => hmadeHere ⟨way, hne, hprefix, hsame⟩] at hplace
      exact h.directory place hplace
  file place content hplace := by
    refine h.file place content ?_
    rwa [hmade.kept place fun way hne hprefix hsame => ?_] at hplace
    rw [hsame, hmade.made way hne hprefix] at hplace
    cases hplace

private theorem Within.write (h : fs.Within bound) {content held : ByteArray}
    (hheld : bound.root.bareAt? place = some (.file held))
    (hleaf : fs.HasLeaf next place (.file content)) : next.Within bound where
  workingDirectory := hleaf.workingDirectory.trans h.workingDirectory
  directory other hother := by
    rw [hleaf.bareAt] at hother
    split at hother
    · cases hother
    · exact h.directory other hother
  file other given hother := by
    rw [hleaf.bareAt] at hother
    split at hother
    · rename_i hsame
      exact ⟨held, hsame ▸ hheld⟩
    · exact h.file other given hother

private theorem Within.bareAt?_eq (h : fs.Within bound) (hback : bound.Within fs)
    (hfiles : ∀ place content held, fs.root.bareAt? place = some (.file content) →
      bound.root.bareAt? place = some (.file held) → content = held) (place : List String) :
    fs.root.bareAt? place = bound.root.bareAt? place := by
  rcases fs.root.bareAt?_cases place with hnone | hdirectory | ⟨content, hcontent⟩
  · rcases bound.root.bareAt?_cases place with hother | hother | ⟨held, hother⟩
    · rw [hnone, hother]
    · rw [hback.directory place hother, hother]
    · obtain ⟨content, hcontent⟩ := hback.file place held hother
      rw [hnone] at hcontent
      cases hcontent
  · rw [hdirectory, h.directory place hdirectory]
  · obtain ⟨held, hheld⟩ := h.file place content hcontent
    rw [hcontent, hheld, hfiles place content held hcontent hheld]

end FileSystem

private theorem insertPath_comm (left right : String) (paths : List String) :
    insertPath left (insertPath right paths) = insertPath right (insertPath left paths) := by
  induction paths with
  | nil => grind [insertPath]
  | cons path paths ih => grind [insertPath]

namespace Disk

variable {disk next start final : Disk} {bound : FileSystem} {top : List String} {path : String} {content held : ByteArray}
  {journal left right : List Write}

private theorem output_of_writeAll (h : start.writeAll journal = .ok final) :
    final.output = { start.output with
      written := (journal.map Prod.fst).foldl (fun paths path => insertPath path paths) start.output.written } := by
  induction journal generalizing start with
  | nil =>
    obtain rfl := Except.ok.inj h
    rfl
  | cons write journal ih =>
    obtain ⟨path, content⟩ := write
    obtain ⟨middle, hmiddle, hfinal⟩ := writeAll_cons_eq_ok_iff.mp h
    rw [ih hfinal, (holds_of_writeBytes hmiddle).output]
    rfl

/-- A journal alters no file but its own. -/
theorem alters_of_writeAll (h : start.writeAll journal = .ok final) :
    start.files.Alters final.files (journal.map fun write => start.output.place start.files write.1) := by
  induction journal generalizing start with
  | nil =>
    obtain rfl := Except.ok.inj h
    exact .refl _
  | cons write journal ih =>
    obtain ⟨path, content⟩ := write
    obtain ⟨middle, hmiddle, hfinal⟩ := writeAll_cons_eq_ok_iff.mp h
    have hends := start.ends_writeBytes path content
    rw [hmiddle] at hends
    cases hends with
    | written hpath hunclaimed hfiles hlocate hcontent =>
      have hrest := ih hfinal
      simp only [OutputDirectory.place_of_workingDirectory hfiles.workingDirectory] at hrest
      exact hfiles.trans hrest

private theorem exists_writeBytes_within (hwithin : disk.files.Within bound)
    (hleads : disk.files.Leads disk.output.root top)
    (hpath : isOutputPath path) (hunclaimed : path ∉ disk.output.written)
    (hlimits : WithinLimits disk.output.root (Text.pieces '/' path))
    (hheld : bound.root.bareAt? (top ++ Text.pieces '/' path) = some (.file held)) (content : ByteArray) :
    ∃ next, disk.writeBytes path content = (.ok (), next) ∧ next.files.Within bound ∧
      next.files.Leads next.output.root top ∧ disk.files.Spares next.files [top ++ Text.pieces '/' path] := by
  obtain ⟨front, last, hpieces⟩ := (List.eq_nil_or_concat' (Text.pieces '/' path)).resolve_left (Text.pieces_ne_nil '/' path)
  rw [hpieces] at hheld
  have habove (way : List String) (hway : way <+: front) : bound.root.bareAt? (top ++ way) = some (.directory []) := by
    obtain ⟨rest, rfl⟩ := hway
    rw [List.append_assoc, ← List.append_assoc] at hheld
    exact Tree.directory_above (by simp) hheld
  have hplain := hwithin.plain hheld
  obtain ⟨middle, files, hwritten, hmade, hleaf⟩ := exists_writeBytes hleads hpath hunclaimed hlimits hpieces
    (fun way hway => hwithin.free (habove way hway)) hplain content
  refine ⟨_, hwritten, (hwithin.makes hmade habove).write hheld hleaf, ?_, hpieces ▸ .of_writes hmade hleaf⟩
  refine (hmade.leads hleads).mono hleaf.workingDirectory fun place hplace => ?_
  rw [hleaf.bareAt, if_neg, hplace]
  rintro rfl
  rw [hmade.kept_concat] at hplace
  exact hplain hplace

private theorem exists_writeAll_within (hwithin : start.files.Within bound)
    (hleads : start.files.Leads start.output.root top) (hpaths : (journal.map Prod.fst).Nodup)
    (hjournal : ∀ write ∈ journal, isOutputPath write.1 ∧ write.1 ∉ start.output.written ∧
      WithinLimits start.output.root (Text.pieces '/' write.1) ∧
      ∃ held, bound.root.bareAt? (top ++ Text.pieces '/' write.1) = some (.file held)) :
    ∃ final, start.writeAll journal = .ok final ∧ final.files.Within bound ∧ final.files.Leads final.output.root top ∧
      start.files.Spares final.files (journal.map fun write => top ++ Text.pieces '/' write.1) := by
  induction journal generalizing start with
  | nil => exact ⟨start, rfl, hwithin, hleads, .refl _⟩
  | cons write journal ih =>
    obtain ⟨path, content⟩ := write
    obtain ⟨⟨hpath, hunclaimed, hlimits, held, hheld⟩, hrest⟩ := List.forall_mem_cons.mp hjournal
    obtain ⟨hnew, hpaths⟩ := List.nodup_cons.mp hpaths
    obtain ⟨middle, hmiddle, hmiddleWithin, hmiddleLeads, hmiddleSpares⟩ :=
      exists_writeBytes_within hwithin hleads hpath hunclaimed hlimits hheld content
    have houtput := (holds_of_writeBytes hmiddle).output
    have hlater (write : Write) (hwrite : write ∈ journal) : write.1 ∉ middle.output.written := by
      rw [houtput, (insertPath_perm hunclaimed).mem_iff, List.mem_cons, not_or]
      refine ⟨?_, (hrest write hwrite).2.1⟩
      rintro hsame
      exact hnew (hsame ▸ List.mem_map_of_mem hwrite)
    obtain ⟨final, hfinal, hfinalWithin, hfinalLeads, hfinalSpares⟩ := ih hmiddleWithin hmiddleLeads hpaths fun write hwrite => by
      obtain ⟨hpath, -, hlimits, hheld⟩ := hrest write hwrite
      refine ⟨hpath, hlater write hwrite, ?_, hheld⟩
      rw [houtput]
      exact hlimits
    exact ⟨final, writeAll_cons_eq_ok_iff.mpr ⟨middle, hmiddle, hfinal⟩, hfinalWithin, hfinalLeads,
      hmiddleSpares.append hfinalSpares⟩

section Order

variable (hleads : start.files.Leads start.output.root top) (h : start.writeAll left = .ok final)
include hleads h

/-- A path that has been written lies below the output directory, holds what was written, and is not too
long. -/
theorem held_of_writeAll {write : Write} (hwrite : write ∈ left) :
    final.files.root.bareAt? (top ++ Text.pieces '/' write.1) = some (.file write.2) ∧
      WithinLimits start.output.root (Text.pieces '/' write.1) := by
  have hall := holdsAll_of_writeAll h
  have hpath := hall.accepted write hwrite
  obtain ⟨place, hplace, hcontent⟩ := FileSystem.read_eq_ok_iff.mp (hall.read write hwrite)
  have hsame : place = top ++ Text.pieces '/' write.1 := by
    rw [OutputDirectory.eq_place_of_locate hpath hplace, OutputDirectory.place_of_workingDirectory hall.keeps.workingDirectory,
      OutputDirectory.place, ← FileSystem.eq_walk_of_follow hleads.follows]
  exact ⟨hsame ▸ hcontent, FileSystem.withinLimits_of_locate (fun _ => isSegment_of_mem_pieces hpath) hplace⟩

/-- A file that is there in the end has been written or was there before. -/
theorem content_of_writeAll {place : List String} (hplace : final.files.root.bareAt? place = some (.file content)) :
    (∃ write ∈ left, place = top ++ Text.pieces '/' write.1 ∧ write.2 = content) ∨
      (∀ write ∈ left, place ≠ top ++ Text.pieces '/' write.1) ∧ start.files.root.bareAt? place = some (.file content) := by
  by_cases hwritten : ∃ write ∈ left, place = top ++ Text.pieces '/' write.1
  · obtain ⟨write, hwrite, rfl⟩ := hwritten
    rw [(held_of_writeAll hleads h hwrite).1] at hplace
    exact .inl ⟨write, hwrite, rfl, Tree.file.inj (Option.some.inj hplace)⟩
  · have hspared : ∀ write ∈ left, place ≠ top ++ Text.pieces '/' write.1 := fun write hwrite hsame =>
      hwritten ⟨write, hwrite, hsame⟩
    refine .inr ⟨hspared, (alters_of_writeAll h).file _ _ hplace fun haltered => ?_⟩
    obtain ⟨write, hwrite, hsame⟩ := List.mem_map.mp haltered
    refine hspared write hwrite ?_
    rw [← hsame, OutputDirectory.place, ← FileSystem.eq_walk_of_follow hleads.follows]

private theorem within_of_writeAll : start.files.Within final.files := by
  have halters := alters_of_writeAll h
  refine ⟨halters.workingDirectory.symm, halters.directory, fun place content hplace => ?_⟩
  by_cases haltered : place ∈ left.map fun write => start.output.place start.files write.1
  · obtain ⟨write, hwrite, rfl⟩ := List.mem_map.mp haltered
    have hheld := (held_of_writeAll hleads h hwrite).1
    rw [FileSystem.eq_walk_of_follow hleads.follows] at hheld
    exact ⟨write.2, hheld⟩
  · exact ⟨content, halters.bareAt place _ hplace (.inr haltered)⟩

/-- A journal that can be written in one order can be written in another, and nothing more comes to be. -/
theorem exists_writeAll_of_perm (hperm : left.Perm right) :
    ∃ other, start.writeAll right = .ok other ∧ other.files.Within final.files ∧
      other.files.Leads other.output.root top ∧
      start.files.Spares other.files (right.map fun write => top ++ Text.pieces '/' write.1) := by
  have hall := holdsAll_of_writeAll h
  refine exists_writeAll_within (within_of_writeAll hleads h) hleads ((hperm.map _).nodup_iff.mp hall.nodup)
    fun write hwrite => ?_
  have hleft := hperm.mem_iff.mpr hwrite
  obtain ⟨hheld, hlimits⟩ := held_of_writeAll hleads h hleft
  exact ⟨hall.accepted write hleft, hall.unclaimed write hleft, hlimits, _, hheld⟩

private theorem spares_of_writeAll :
    final.files.Leads final.output.root top ∧
      start.files.Spares final.files (left.map fun write => top ++ Text.pieces '/' write.1) := by
  obtain ⟨other, hother, -, hstays⟩ := exists_writeAll_of_perm hleads h (.refl _)
  obtain rfl := Except.ok.inj (h.symm.trans hother)
  exact hstays

theorem sameOutside_of_writeAll :
    final.files.Leads final.output.root top ∧ start.files.SameOutside final.files top := by
  obtain ⟨hleadsFinal, hspares⟩ := spares_of_writeAll hleads h
  refine ⟨hleadsFinal, hspares.sameOutside fun place hplace => ?_⟩
  obtain ⟨write, -, rfl⟩ := List.mem_map.mp hplace
  exact List.prefix_append _ _

/-- What stands at a place behind a journal: the file that was written there, a directory on the way to a
file that was written, or else what stood there before. -/
theorem bareAt?_of_writeAll (place : List String) :
    (∃ write ∈ left, place = top ++ Text.pieces '/' write.1 ∧ final.files.root.bareAt? place = some (.file write.2)) ∨
    (∃ write ∈ left, ∃ rest ≠ [], place ++ rest = top ++ Text.pieces '/' write.1 ∧
      final.files.root.bareAt? place = some (.directory [])) ∨
    (∀ write ∈ left, ¬ place <+: top ++ Text.pieces '/' write.1) ∧
      final.files.root.bareAt? place = start.files.root.bareAt? place := by
  by_cases hway : ∃ write ∈ left, place <+: top ++ Text.pieces '/' write.1
  · obtain ⟨write, hwrite, rest, hrest⟩ := hway
    have hheld := (held_of_writeAll hleads h hwrite).1
    by_cases hempty : rest = []
    · rw [hempty, List.append_nil] at hrest
      exact .inl ⟨write, hwrite, hrest, hrest ▸ hheld⟩
    · rw [← hrest] at hheld
      exact .inr (.inl ⟨write, hwrite, rest, hempty, hrest, Tree.directory_above hempty hheld⟩)
  · have hspared : ∀ write ∈ left, ¬ place <+: top ++ Text.pieces '/' write.1 := fun write hwrite hplace =>
      hway ⟨write, hwrite, hplace⟩
    exact .inr (.inr ⟨hspared, (spares_of_writeAll hleads h).2.bareAt?_eq fun other hother => by
      obtain ⟨write, hwrite, rfl⟩ := List.mem_map.mp hother
      exact hspared write hwrite⟩)

/-- Files that can be written in one order can be written in any, and the same files are there in the
end. -/
theorem writeAll_of_perm (hperm : left.Perm right) :
    ∃ other, start.writeAll right = .ok other ∧
      (∀ place, final.files.root.bareAt? place = other.files.root.bareAt? place) ∧ final.output = other.output := by
  obtain ⟨other, hother, hwithin, -⟩ := exists_writeAll_of_perm hleads h hperm
  obtain ⟨back, hback, hbackWithin, -⟩ := exists_writeAll_of_perm hleads hother hperm.symm
  obtain rfl := Except.ok.inj (h.symm.trans hback)
  refine ⟨other, hother, hbackWithin.bareAt?_eq hwithin fun place content held hcontent hheld => ?_, ?_⟩
  · rcases content_of_writeAll hleads h hcontent with ⟨write, hwrite, rfl, rfl⟩ | ⟨hspared, hcontent⟩
    · have hright := (held_of_writeAll hleads hother (hperm.mem_iff.mp hwrite)).1
      exact Tree.file.inj (Option.some.inj (hright.symm.trans hheld))
    · rcases content_of_writeAll hleads hother hheld with ⟨write, hwrite, hsame, -⟩ | ⟨-, hheld⟩
      · exact absurd hsame (hspared write (hperm.mem_iff.mpr hwrite))
      · exact Tree.file.inj (Option.some.inj (hcontent.symm.trans hheld))
  · rw [output_of_writeAll h, output_of_writeAll hother,
      (hperm.map Prod.fst).foldl_eq' fun left _ right _ paths => insertPath_comm right left paths]

/-- Files that have been written can be written again, and nothing changes. -/
theorem exists_writeAll_again {back : Disk} (hfiles : back.files = final.files) (houtput : back.output = start.output) :
    ∃ again, back.writeAll left = .ok again ∧ ∀ place, again.files.root.bareAt? place = final.files.root.bareAt? place := by
  have hall := holdsAll_of_writeAll h
  have hleadsBack : back.files.Leads back.output.root top := by
    rw [hfiles, houtput, ← hall.root]
    exact (sameOutside_of_writeAll hleads h).1
  rw [← hfiles]
  have hheld (write : Write) (hwrite : write ∈ left) :
      back.files.root.bareAt? (top ++ Text.pieces '/' write.1) = some (.file write.2) :=
    hfiles ▸ (held_of_writeAll hleads h hwrite).1
  obtain ⟨again, hagain, hwithin, -⟩ := exists_writeAll_within (.refl back.files) hleadsBack hall.nodup fun write hwrite =>
    ⟨hall.accepted write hwrite, houtput ▸ hall.unclaimed write hwrite, houtput ▸ (held_of_writeAll hleads h hwrite).2, _,
      hheld write hwrite⟩
  refine ⟨again, hagain, hwithin.bareAt?_eq (within_of_writeAll hleadsBack hagain) fun place content held hcontent hback => ?_⟩
  rcases content_of_writeAll hleadsBack hagain hcontent with ⟨write, hwrite, rfl, rfl⟩ | ⟨-, hcontent⟩
  · exact Tree.file.inj (Option.some.inj ((hheld write hwrite).symm.trans hback))
  · exact Tree.file.inj (Option.some.inj (hcontent.symm.trans hback))

end Order

end Disk

end SchemaDocs
