import SchemaDocs.Proofs.Site.Blocking
import SchemaDocs.Proofs.Site.Copies
import SchemaDocs.Proofs.Storage.Below

/-!
# Where resources are loaded from

Resources in memory and the same resources in a directory are loaded alike. A locator that is not refused leads to
the directory or below it, and what it loads depends on nothing else.
-/

namespace SchemaDocs

open FileSystem (Leads WithinLimits leads_of_read_join placeOf_join read_join_congr read_join_eq_ok_iff)
open SchemaDocs.Path (IsPlain)

/-- The files below a directory are those of a map, at the names of their locators. A locator there is no longer than
a path can be. -/
structure FileSystem.Stores (files : FileSystem) (root : String) (top : List String) (resources : List (String × ByteArray)) :
    Prop where
  leads : files.Leads root top
  file_iff : ∀ locator content, IsPlain locator →
    (files.root.get? (top ++ Text.pieces '/' locator) = some (.file content) ↔ resources.lookup locator = some content)
  limits : ∀ locator content, IsPlain locator → resources.lookup locator = some content →
    WithinLimits root (Text.pieces '/' locator)

private theorem Disk.stores_of_writeAll {start final : Disk} {resources : List Write} (hvacant : start.IsVacant)
    (h : start.writeAll resources = .ok final) : ∃ top, final.files.Stores start.output.root top resources := by
  obtain ⟨top, honly⟩ := hvacant.exists_holdsOnly
  have hall := holdsAll_of_writeAll h
  have hlookup (locator : String) (content : ByteArray) :
      resources.lookup locator = some content ↔ (locator, content) ∈ resources := lookup_eq_some_iff_mem hall.nodup
  have hleads := (sameOutside_of_writeAll honly.leads h).1
  rw [hall.root] at hleads
  refine ⟨top, hleads, fun locator content _ => ?_, fun locator content _ hfound => ?_⟩
  · rw [hlookup, ← Tree.bareAt?_eq_file_iff]
    constructor
    · intro hfile
      rcases content_of_writeAll honly.leads h hfile with ⟨write, hwrite, hplace, rfl⟩ | ⟨-, hbefore⟩
      · rwa [Text.pieces_injective '/' (List.append_cancel_left hplace)]
      · obtain ⟨path, hpath, -⟩ := honly.file _ _ hbefore
        cases hpath
    · intro hmem
      exact (held_of_writeAll honly.leads h hmem).1
  · exact (held_of_writeAll honly.leads h ((hlookup locator content).mp hfound)).2

namespace Provider

variable {files : FileSystem} {root locator : String} {top : List String} {resources : List (String × ByteArray)}
  {content : ByteArray}

/-! ### What is refused -/

private theorem load_directory_of_not_isDownward (h : ¬ Path.isDownward locator) (root : String) (files : FileSystem) :
    (directory root).load files locator = .error (.invalidLocator locator) := by
  rw [load]
  simp [h]

private theorem load_directory_ne_invalidLocator (h : Path.isDownward locator) (other : String) :
    (directory root).load files locator ≠ .error (.invalidLocator other) := by
  rw [load, h]
  simp only [Bool.not_true, Bool.false_eq_true, if_false]
  split <;> simp

/-! ### What is loaded -/

theorem load_memory_eq_ok_iff :
    (memory resources).load files locator = .ok content ↔ resources.lookup locator = some content := by
  rw [load]
  cases resources.lookup locator <;> simp

private theorem load_directory_eq_ok_iff_of_leads (hleads : files.Leads root top) (h : IsPlain locator) :
    (directory root).load files locator = .ok content ↔
      WithinLimits root (Text.pieces '/' locator) ∧
        files.root.get? (top ++ Text.pieces '/' locator) = some (.file content) := by
  rw [load_directory_eq_ok_iff, and_iff_right h.isDownward, read_join_eq_ok_iff hleads h]

private theorem load_directory_eq_ok_iff_load_memory (hstores : files.Stores root top resources) (h : IsPlain locator) :
    (directory root).load files locator = .ok content ↔ (memory resources).load files locator = .ok content := by
  rw [load_directory_eq_ok_iff_of_leads hstores.leads h, load_memory_eq_ok_iff, hstores.file_iff locator content h]
  exact and_iff_right_of_imp (hstores.limits locator content h)

/-- A locator leads to the directory of a provider or below it, by names that each lead one step down. What is loaded
lies there, and depends on this directory alone. -/
structure IsConfined (root locator : String) (names : List String) : Prop where
  segments : ∀ name ∈ names, IsSegment name
  place : ∀ files : FileSystem, files.placeOf (Path.join root locator) = files.placeOf root ++ names
  found : ∀ files content, (directory root).load files locator = .ok content →
    files.Leads root (files.placeOf root) ∧ files.root.get? (files.placeOf root ++ names) = some (.file content)
  within : ∀ (files other : FileSystem) (top : List String), files.Leads root top → other.Leads root top →
    other.root.get? top = files.root.get? top → (directory root).load other locator = (directory root).load files locator

private theorem isConfined_of_isDownward (h : Path.isDownward locator) (root : String) :
    IsConfined root locator (Path.steps locator) where
  segments _ := Path.isSegment_of_mem_steps h
  place files := placeOf_join h files root
  found _ _ hload := leads_of_read_join h (load_directory_eq_ok_iff.mp hload).2
  within files other top hfiles hother hsame := by
    rw [load, load, read_join_congr h hfiles hother hsame]

/-- For a plain locator a directory loads the file at its names, if these are within the limits of paths. So one that
stores a map loads what the map has, and refuses no plain locator; and a map that can be written into an empty
directory is stored there. A locator of any form is either refused, whatever the files are, or leads to the directory
or below it. -/
theorem loads_alike_and_below (root : String) :
    (∀ files top, files.Leads root top → ∀ locator, IsPlain locator → ∀ content,
      (directory root).load files locator = .ok content ↔
        WithinLimits root (Text.pieces '/' locator) ∧
          files.root.get? (top ++ Text.pieces '/' locator) = some (.file content)) ∧
      (∀ files top resources, files.Stores root top resources → ∀ locator, IsPlain locator →
        (∀ content, (directory root).load files locator = .ok content ↔ (memory resources).load files locator = .ok content) ∧
          ∀ other, (directory root).load files locator ≠ .error (.invalidLocator other)) ∧
      (∀ (start final : Disk) (resources : List Write), start.output.root = root → start.IsVacant →
        start.writeAll resources = .ok final → ∃ top, final.files.Stores root top resources) ∧
      ∀ locator, (∀ files, (directory root).load files locator = .error (.invalidLocator locator)) ∨
        ∃ names, IsConfined root locator names := by
  refine ⟨fun files top hleads locator h content => load_directory_eq_ok_iff_of_leads hleads h,
    fun files top resources hstores locator h => ?_, fun start final resources hroot hvacant h => ?_, fun locator => ?_⟩
  · exact ⟨fun content => load_directory_eq_ok_iff_load_memory hstores h, load_directory_ne_invalidLocator h.isDownward⟩
  · rw [← hroot]
    exact Disk.stores_of_writeAll hvacant h
  · by_cases hdown : Path.isDownward locator
    · exact .inr ⟨_, isConfined_of_isDownward hdown root⟩
    · exact .inl (load_directory_of_not_isDownward hdown root)

end Provider

namespace Sample

def emptyShelf : Disk := ⟨{ root := .directory [("r", .directory [])] }, { root := "r" }⟩

private theorem emptyShelf_vacant : emptyShelf.IsVacant := ⟨["r"], ⟨rfl, rfl⟩, rfl⟩

def shelved : List (String × ByteArray) := [("app/js/app.js", "app()".toUTF8)]

private theorem exists_shelved : ∃ final, emptyShelf.writeAll shelved = .ok final := by
  have h : (emptyShelf.writeAll shelved).toOption.isSome := by
    decide +kernel
  obtain ⟨final, hfinal⟩ := Option.isSome_iff_exists.mp h
  exact ⟨final, eq_ok_of_toOption hfinal⟩

end Sample

theorem Provider.loads_alike_and_below_shelved :
    ∃ final, Sample.emptyShelf.writeAll Sample.shelved = .ok final ∧
      (directory "r").load final.files "app/js/app.js" = .ok "app()".toUTF8 ∧
      (∀ content, (directory "r").load final.files "app/js" ≠ .ok content) ∧
      (∀ content, (directory "r").load final.files "app/js/app.js/x" ≠ .ok content) ∧
      ∃ names, IsConfined "r" "app//js/./app.js" names := by
  obtain ⟨-, halike, hstored, hbelow⟩ := loads_alike_and_below "r"
  obtain ⟨final, hfinal⟩ := Sample.exists_shelved
  obtain ⟨top, hstores⟩ := hstored _ _ _ rfl Sample.emptyShelf_vacant hfinal
  have hplain (locator : String) (h : isOutputPath locator) : IsPlain locator := fun _ => isSegment_of_mem_pieces h
  have hload (locator : String) (h : isOutputPath locator) := (halike _ _ _ hstores locator (hplain locator h)).1
  refine ⟨final, hfinal, (hload _ (by decide) _).mpr rfl, fun content h => ?_, fun content h => ?_, ?_⟩
  · cases (hload _ (by decide) content).mp h
  · cases (hload _ (by decide) content).mp h
  · refine (hbelow "app//js/./app.js").resolve_left fun h => ?_
    exact load_directory_ne_invalidLocator (by decide) _ (h {})

end SchemaDocs
