import SchemaDocs.Proofs.Site.Orders
import SchemaDocs.Proofs.Site.Stages

/-!
# Resources from outside

A resource that lies outside of the output directory is the same whatever that directory holds. So the
resources that a site has copied are those that can be loaded once it is there, and they can be copied again.
-/

namespace SchemaDocs

/-- What a provider loads for a locator lies outside of a directory. -/
def Provider.LoadsOutside (files : FileSystem) (top : List String) (locator : String) : Provider → Prop
  | .memory _ => True
  | .directory root => ¬ top <+: files.placeOf (Path.join root locator)
  | .custom load => ∀ fs other : FileSystem, fs.root.bareAt? top = some (.directory []) →
      other.root.bareAt? top = some (.directory []) → fs.SameOutside other top → load fs locator = load other locator

section

variable {provider : Provider} {fs other : FileSystem} {top : List String} {locator : String} {content held : ByteArray}
  {pairs : List (String × String)} {journal : List Write} {start final : Workshop} {disk : Disk}

theorem FileSystem.placeOf_of_workingDirectory (h : other.workingDirectory = fs.workingDirectory) (path : String) :
    other.placeOf path = fs.placeOf path := by
  rw [placeOf, placeOf, start, start, h]

theorem Provider.LoadsOutside.of_workingDirectory (h : provider.LoadsOutside fs top locator)
    (hworking : other.workingDirectory = fs.workingDirectory) : provider.LoadsOutside other top locator := by
  cases provider with
  | memory resources => trivial
  | directory root =>
    rw [LoadsOutside, FileSystem.placeOf_of_workingDirectory hworking]
    exact h
  | custom load => exact h

theorem Provider.load_directory_eq_ok_iff {root : String} :
    (directory root).load fs locator = .ok content ↔
      Path.isDownward locator ∧ fs.read (Path.join root locator) = .ok content := by
  rw [load]
  cases Path.isDownward locator with
  | false => simp
  | true =>
    simp only [Bool.not_true, Bool.false_eq_true, if_false, true_and]
    cases hread : fs.read (Path.join root locator) with
    | ok found => simp
    | error error => cases error <;> simp

section

variable (hloads : provider.LoadsOutside fs top locator) (hsame : fs.SameOutside other top)
  (hfs : fs.root.bareAt? top = some (.directory [])) (hother : other.root.bareAt? top = some (.directory []))
include hloads hsame hfs hother

private theorem Provider.eq_of_load (h : provider.load fs locator = .ok content)
    (hagain : provider.load other locator = .ok held) :
    held = content := by
  cases provider with
  | memory resources => exact Except.ok.inj (hagain.symm.trans h)
  | directory root =>
    rw [load_directory_eq_ok_iff] at h hagain
    exact hsame.eq_of_read hfs hother hloads h.2 hagain.2
  | custom load => exact Except.ok.inj (hagain.symm.trans ((hloads fs other hfs hother hsame).symm.trans h))

/-- It can still be loaded later. -/
theorem Provider.load_of_later (hdirectories : ∀ place, fs.root.bareAt? place = some (.directory []) →
      other.root.bareAt? place = some (.directory [])) (h : provider.load fs locator = .ok content) :
    provider.load other locator = .ok content := by
  cases provider with
  | memory resources => exact h
  | directory root =>
    rw [load_directory_eq_ok_iff] at h ⊢
    exact ⟨h.1, hsame.read hfs hother hdirectories hloads h.2⟩
  | custom load => exact (hloads fs other hfs hother hsame).symm.trans h

end

/-- The file of a resource, as the provider loads it from some files. -/
structure IsCopy (provider : Provider) (files : FileSystem) (pair : String × String) (write : Write) : Prop where
  path : write.1 = pair.2
  loaded : provider.load files pair.1 = .ok write.2

/-- Copies of resources that lie outside of a directory are the same whatever the directory holds. -/
theorem eq_of_copies {copies : List Write} (hloads : ∀ pair ∈ pairs, provider.LoadsOutside fs top pair.1)
    (hsame : fs.SameOutside other top) (hfs : fs.root.bareAt? top = some (.directory []))
    (hother : other.root.bareAt? top = some (.directory [])) (h : List.Forall₂ (IsCopy provider fs) pairs journal)
    (hagain : List.Forall₂ (IsCopy provider other) pairs copies) : copies = journal := by
  induction h generalizing copies with
  | nil => exact List.forall₂_nil_left_iff.mp hagain
  | cons hcopy _ ih =>
    obtain ⟨write, others, hwrite, hothers, rfl⟩ := List.forall₂_cons_left_iff.mp hagain
    obtain ⟨hfirst, hloads⟩ := List.forall_mem_cons.mp hloads
    have hcontent := Provider.eq_of_load hfirst hsame hfs hother hcopy.loaded hwrite.loaded
    rw [ih hloads hothers, Prod.ext (hwrite.path.trans hcopy.path.symm) hcontent]

theorem copies_of_later (hloads : ∀ pair ∈ pairs, provider.LoadsOutside fs top pair.1)
    (hsame : fs.SameOutside other top)
    (hfs : fs.root.bareAt? top = some (.directory [])) (hother : other.root.bareAt? top = some (.directory []))
    (hdirectories : ∀ place, fs.root.bareAt? place = some (.directory []) → other.root.bareAt? place = some (.directory []))
    (h : List.Forall₂ (IsCopy provider fs) pairs journal) : List.Forall₂ (IsCopy provider other) pairs journal :=
  ((List.forall₂_and_left _ _).mpr ⟨hloads, h⟩).imp fun _ _ ⟨houtside, hcopy⟩ =>
    ⟨hcopy.path, Provider.load_of_later houtside hsame hfs hother hdirectories hcopy.loaded⟩

theorem yields_copyResource_iff {pair : String × String} :
    (copyResource provider pair).Yields start () final ↔
      ∃ content, provider.load start.disk.files pair.1 = .ok content ∧
        start.disk.writeAll [(pair.2, content)] = .ok final.disk ∧ final.renderer = start.renderer := by
  rw [Build.Yields, copyResource]
  constructor
  · intro h
    split at h
    · cases (Prod.mk.inj h).1
    · rename_i content hload
      refine ⟨content, hload, Build.writeAll_of_yields h, ?_⟩
      rw [← (Prod.mk.inj h).2]
  · rintro ⟨content, hload, hwritten, hrenderer⟩
    obtain ⟨middle, hwrite, hmiddle⟩ := Disk.writeAll_cons_eq_ok_iff.mp hwritten
    obtain rfl := Except.ok.inj hmiddle
    rw [hload]
    simp only [Build.writeBytes, hwrite, ← hrenderer]
    rfl

section

variable (hleads : start.disk.files.Leads start.disk.output.root top)
  (hloads : ∀ pair ∈ pairs, provider.LoadsOutside start.disk.files top pair.1)
include hleads hloads

/-- The resources that have been copied are those that are loaded in the end. -/
theorem exists_copies_of_yields (h : (pairs.forM (copyResource provider)).Yields start () final) :
    ∃ copies, List.Forall₂ (IsCopy provider final.disk.files) pairs copies ∧
      start.disk.writeAll copies = .ok final.disk := by
  induction pairs generalizing start with
  | nil =>
    obtain ⟨-, rfl⟩ := Build.yields_pure_iff.mp h
    exact ⟨[], .nil, rfl⟩
  | cons pair pairs ih =>
    obtain ⟨hfirst, hloads⟩ := List.forall_mem_cons.mp hloads
    obtain ⟨_, middle, hcopied, hrest⟩ := Build.yields_bind_iff.mp h
    obtain ⟨content, hload, hwritten, -⟩ := yields_copyResource_iff.mp hcopied
    obtain ⟨hmiddle, houtside⟩ := Disk.sameOutside_of_writeAll hleads hwritten
    obtain ⟨copies, hcopies, hfinal⟩ := ih hmiddle
      (fun other hother => (hloads other hother).of_workingDirectory houtside.workingDirectory) hrest
    have hall := Disk.writeAll_append_eq_ok_iff.mpr ⟨_, hwritten, hfinal⟩
    obtain ⟨hend, houtside⟩ := Disk.sameOutside_of_writeAll hleads hall
    refine ⟨(pair.2, content) :: copies, .cons ⟨rfl, ?_⟩ hcopies, hall⟩
    exact Provider.load_of_later hfirst houtside hleads.directory hend.directory (Disk.alters_of_writeAll hall).directory hload

/-- Resources that can be loaded are copied, if there is room for them. -/
theorem yields_of_copies (hcopies : List.Forall₂ (IsCopy provider start.disk.files) pairs journal)
    (h : start.disk.writeAll journal = .ok disk) :
    (pairs.forM (copyResource provider)).Yields start () ⟨disk, start.renderer⟩ := by
  induction pairs generalizing start journal with
  | nil =>
    obtain rfl := List.forall₂_nil_left_iff.mp hcopies
    obtain rfl := Except.ok.inj h
    rfl
  | cons pair pairs ih =>
    obtain ⟨⟨target, content⟩, copies, ⟨hpath, hload⟩, hrest, rfl⟩ := List.forall₂_cons_left_iff.mp hcopies
    obtain rfl : target = pair.2 := hpath
    obtain ⟨-, hloads⟩ := List.forall_mem_cons.mp hloads
    have hparts : start.disk.writeAll ([(pair.2, content)] ++ copies) = .ok disk := h
    obtain ⟨middle, hwritten, hjournal⟩ := Disk.writeAll_append_eq_ok_iff.mp hparts
    obtain ⟨hmiddle, houtside⟩ := Disk.sameOutside_of_writeAll hleads hwritten
    have hcopied : (copyResource provider pair).Yields start () ⟨middle, start.renderer⟩ :=
      yields_copyResource_iff.mpr ⟨content, hload, hwritten, rfl⟩
    have hlater := copies_of_later hloads houtside hleads.directory hmiddle.directory
      (Disk.alters_of_writeAll hwritten).directory hrest
    have hmiddleLeads : (Workshop.mk middle start.renderer).disk.files.Leads
        (Workshop.mk middle start.renderer).disk.output.root top := hmiddle
    have hothers := ih hmiddleLeads (fun other hother => (hloads other hother).of_workingDirectory houtside.workingDirectory)
      hlater hjournal
    exact Build.yields_bind_iff.mpr ⟨(), _, hcopied, hothers⟩

end

end

end SchemaDocs
