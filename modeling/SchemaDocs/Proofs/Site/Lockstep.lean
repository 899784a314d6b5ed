import SchemaDocs.Proofs.Reference.Comments
import SchemaDocs.Proofs.Site.Separation
import SchemaDocs.Proofs.Storage.Similar

/-!
# Builds side by side

Two builds run side by side as long as they write the same paths in the same order. Documents of the
reference may differ in what comments are rendered as; everything else that is written is the same. Then a
step fails in both for the same reason, or succeeds in both, and what is on the disks has one shape.
-/

namespace SchemaDocs

open Json (Value)
open Markdown (Renderer)

/-! ### Contents that may differ -/

/-- Two files are the same, or documents that are the same once descriptions and summaries are erased. -/
def SameErased (content held : ByteArray) : Prop :=
  content = held ∨
    ∃ value other : Value, content = Disk.jsonBytes value ∧ held = Disk.jsonBytes other ∧ value.erased = other.erased

/-- The path of the index or of the document of a declaration. -/
def IsReferencePath (path : String) : Prop := path = "data/index.json" ∨ ∃ kind name, path = documentPath kind name

/-- Files at some paths below a directory may be documents that differ in descriptions and summaries. All
other files are the same. -/
def ApartFromComments (top : List String) (loose : String → Prop) : ContentRelation := fun place content held =>
  content = held ∨ (∃ path, loose path ∧ place = top ++ Text.pieces '/' path) ∧ SameErased content held

variable {top : List String} {loose more : String → Prop}

theorem ApartFromComments.sameErased {place : List String} {content held : ByteArray}
    (h : ApartFromComments top loose place content held) : SameErased content held := h.elim .inl And.right

/-- At the place of a path that is not among these, files are the same. -/
theorem ApartFromComments.eq_of_not {path : String} {content held : ByteArray} (hpath : ¬ loose path)
    (h : ApartFromComments top loose (top ++ Text.pieces '/' path) content held) : content = held := by
  refine h.resolve_right fun ⟨⟨other, hother, hplace⟩, _⟩ => hpath ?_
  rwa [Text.pieces_injective '/' (List.append_cancel_left hplace)]

theorem ApartFromComments.mono (h : ∀ path, loose path → more path) (place : List String) (content held : ByteArray)
    (hcontents : ApartFromComments top loose place content held) : ApartFromComments top more place content held := by
  refine hcontents.imp_right fun ⟨⟨path, hpath, hplace⟩, herased⟩ => ⟨⟨path, h path hpath, hplace⟩, herased⟩

private theorem Discovery.candidate?_json (directories : List String) (base : String) (content : ByteArray) :
    candidate? directories (base ++ ".json") content = none := by
  rw [candidate?]
  split
  · rename_i stem extension hsplit
    refine if_neg fun hextension => ?_
    have hextension := List.contains_iff_mem.mp hextension
    rw [extensions, List.mem_cons, List.mem_singleton] at hextension
    -- the last letters are not those of any page
    have htext := congrArg List.reverse (toList_of_splitExtension hsplit)
    rcases hextension with rfl | rfl <;> simp at htext
  · rfl

theorem keepsPages_reference : Discovery.KeepsPages (ApartFromComments top IsReferencePath) := by
  intro place name content held hcontents directories
  rcases hcontents with rfl | ⟨⟨path, hpath, hplace⟩, -⟩
  · rfl
  · obtain ⟨base, rfl⟩ : ∃ base, path = base ++ ".json" := by
      rcases hpath with rfl | ⟨kind, name, rfl⟩
      · exact ⟨"data/index", rfl⟩
      · exact ⟨_, rfl⟩
    obtain ⟨front, last, -, hpieces⟩ := Text.pieces_append_of_not_mem (show '/' ∉ ".json".toList by decide) base
    rw [hpieces, ← List.append_assoc] at hplace
    obtain ⟨-, hname⟩ := List.append_inj' hplace rfl
    obtain rfl := List.singleton_inj.mp hname
    rw [Discovery.candidate?_json, Discovery.candidate?_json]

/-! ### Disks -/

namespace Disk

variable {disk other : Disk} {path : String} {content held : ByteArray}

/-- Two disks have one shape and the same claims. -/
structure Alongside (top : List String) (loose : String → Prop) (disk other : Disk) : Prop where
  files : disk.files.Similar (ApartFromComments top loose) other.files
  output : other.output = disk.output
  top : disk.files.placeOf disk.output.root = top

theorem Alongside.mono (h : disk.Alongside top loose other) (hmore : ∀ path, loose path → more path) :
    disk.Alongside top more other := ⟨h.files.mono (ApartFromComments.mono hmore), h.output, h.top⟩

private theorem placeOf_of_writeBytes (disk : Disk) (path : String) (content : ByteArray) :
    (disk.writeBytes path content).2.files.placeOf (disk.writeBytes path content).2.output.root =
      disk.files.placeOf disk.output.root := by
  have hends := disk.ends_writeBytes path content
  generalize (disk.writeBytes path content).1 = outcome, (disk.writeBytes path content).2 = next at hends
  cases hends with
  | notRelative _ | duplicate _ _ => rfl
  | failed _ _ _ hfiles => exact FileSystem.placeOf_of_workingDirectory hfiles.workingDirectory _
  | written _ _ hfiles _ _ => exact FileSystem.placeOf_of_workingDirectory hfiles.workingDirectory _

private theorem Alongside.writeBytes (h : disk.Alongside top loose other)
    (hcontent : path ∉ disk.output.written → content = held ∨ loose path ∧ SameErased content held) :
    (other.writeBytes path held).1 = (disk.writeBytes path content).1 ∧
      (disk.writeBytes path content).2.Alongside top loose (other.writeBytes path held).2 := by
  have hplace := placeOf_of_writeBytes disk path content
  rw [h.top] at hplace
  suffices hmain : (other.writeBytes path held).1 = (disk.writeBytes path content).1 ∧
      (disk.writeBytes path content).2.files.Similar (ApartFromComments top loose) (other.writeBytes path held).2.files ∧
      (other.writeBytes path held).2.output = (disk.writeBytes path content).2.output from
    ⟨hmain.1, hmain.2.1, hmain.2.2, hplace⟩
  clear hplace
  rw [Disk.writeBytes, Disk.writeBytes, h.output]
  cases hclaim : disk.output.claim path with
  | error error => exact ⟨rfl, h.files, h.output⟩
  | ok output =>
    obtain ⟨hpath, hunclaimed, houtput⟩ := OutputDirectory.claim_eq_ok_iff.mp hclaim
    have hroot : output.root = disk.output.root := by rw [houtput]
    obtain ⟨houtcome, hmade⟩ := h.files.createDirectories (Path.directory (output.location path))
    have hworking := (FileSystem.alters_of_createDirectories (Path.directory (output.location path)) disk.files).workingDirectory
    simp only
    generalize disk.files.createDirectories _ = made, other.files.createDirectories _ = madeOther at houtcome hmade hworking
    obtain ⟨outcome, files⟩ := made
    obtain ⟨outcomeOther, filesOther⟩ := madeOther
    obtain rfl : outcomeOther = outcome := houtcome
    cases outcomeOther with
    | error error => exact ⟨rfl, hmade, rfl⟩
    | ok _ =>
      have hwrite : EndAlike (FileSystem.Similar (ApartFromComments top loose)) (files.write (output.location path) content)
          (filesOther.write (output.location path) held) := hmade.write fun place hplace => by
        obtain hsame | ⟨hloose, herased⟩ := hcontent hunclaimed
        · exact .inl hsame
        refine .inr ⟨⟨path, hloose, ?_⟩, herased⟩
        rw [OutputDirectory.eq_place_of_locate hpath hplace, OutputDirectory.place_of_workingDirectory hworking,
          OutputDirectory.place_of_root hroot, ← h.top]
        rfl
      simp only
      generalize files.write _ content = written, filesOther.write _ held = writtenOther at hwrite
      cases hwrite with
      | error error => exact ⟨rfl, hmade, rfl⟩
      | ok hwritten => exact ⟨rfl, hwritten, rfl⟩

end Disk

/-! ### Steps -/

/-- Two steps that start from what is alike fail for the same reason, or give what is related. Either way
what they leave is alike. -/
def Build.Lockstep {α β : Type} (Alike : Workshop → Workshop → Prop) (Relates : α → β → Prop) (step : Build α)
    (other : Build β) : Prop :=
  ∀ start startOther, Alike start startOther →
    EndAlike Relates (step start).1 (other startOther).1 ∧ Alike (step start).2 (other startOther).2

namespace Build.Lockstep

variable {α β γ δ : Type} {Alike : Workshop → Workshop → Prop} {Relates : α → β → Prop} {Further : γ → δ → Prop}

theorem pure {value : α} {result : β} (h : Relates value result) :
    Lockstep Alike Relates (Pure.pure value) (Pure.pure result) := fun _ _ hstart => ⟨.ok h, hstart⟩

theorem throw (error : BuildError) : Lockstep Alike Relates (throw error) (throw error) :=
  fun _ _ hstart => ⟨.error error, hstart⟩

theorem bind {first : Build α} {firstOther : Build β} {next : α → Build γ} {nextOther : β → Build δ}
    (hfirst : Lockstep Alike Relates first firstOther)
    (hnext : ∀ value result, Relates value result → Lockstep Alike Further (next value) (nextOther result)) :
    Lockstep Alike Further (first >>= next) (firstOther >>= nextOther) := by
  intro start startOther hstart
  obtain ⟨houtcome, hmiddle⟩ := hfirst start startOther hstart
  rw [run_bind, run_bind]
  generalize first start = ended, firstOther startOther = endedOther at houtcome hmiddle
  obtain ⟨outcome, middle⟩ := ended
  obtain ⟨outcomeOther, middleOther⟩ := endedOther
  cases houtcome with
  | error error => exact ⟨.error error, hmiddle⟩
  | ok h => exact hnext _ _ h middle middleOther hmiddle

theorem forM {step : α → Build Unit} {stepOther : β → Build Unit} {items : List α} {others : List β}
    (hstep : ∀ item other, Relates item other → Lockstep Alike Eq (step item) (stepOther other))
    (h : List.Forall₂ Relates items others) : Lockstep Alike Eq (items.forM step) (others.forM stepOther) := by
  induction h with
  | nil => exact pure rfl
  | cons hfirst _ ih => exact (hstep _ _ hfirst).bind fun _ _ _ => ih

/-- Tasks that are picked alike stay side by side, whichever of them fail. -/
theorem race {step : α → Build Unit} {stepOther : β → Build Unit} {tasks : List α} {others : List β}
    (hstep : ∀ task other, Relates task other → Lockstep Alike Eq (step task) (stepOther other))
    (h : List.Forall₂ Relates tasks others) (schedule : Schedule) :
    Lockstep Alike Eq (Build.race step schedule tasks) (Build.race stepOther schedule others) := by
  obtain ⟨picks, reported⟩ := schedule
  suffices hall : ∀ failures, Lockstep Alike Eq (racing step reported failures picks tasks)
      (racing stepOther reported failures picks others) from hall []
  induction picks generalizing tasks others with
  | nil =>
    rintro (_ | ⟨first, failures⟩)
    · exact forM hstep h
    · exact throw _
  | cons pick picks ih =>
    intro failures
    obtain ⟨hnone, hnoneOther⟩ | ⟨task, other, htask, hother, hrelates, herased⟩ := forall₂_pick h pick
    · rw [racing_of_none hnone, racing_of_none hnoneOther]
      exact ih h failures
    · intro start startOther hstart
      obtain ⟨houtcome, hmiddle⟩ := hstep task other hrelates start startOther hstart
      rw [racing_of_some htask, racing_of_some hother, ← houtcome.eq]
      exact ih herased _ _ _ hmiddle

theorem runAll {context contextOther : Context} {stages : List Stage}
    (h : ∀ stage ∈ stages, Lockstep Alike Eq (stage.run context) (stage.run contextOther)) :
    Lockstep Alike Eq (Stage.runAll context stages) (Stage.runAll contextOther stages) := by
  have hfrom (given : Report) : Lockstep Alike Eq
      (stages.foldlM (fun report stage => do return report.add (← stage.run context)) given)
      (stages.foldlM (fun report stage => do return report.add (← stage.run contextOther)) given) := by
    induction stages generalizing given with
    | nil => exact pure rfl
    | cons stage stages ih =>
      obtain ⟨hstage, hstages⟩ := List.forall_mem_cons.mp h
      rw [List.foldlM_cons, List.foldlM_cons]
      have hnext : Lockstep Alike Eq (stage.run context >>= fun part => Pure.pure (given.add part))
          (stage.run contextOther >>= fun part => Pure.pure (given.add part)) :=
        hstage.bind fun _ _ hpart => pure (congrArg given.add hpart)
      refine hnext.bind fun next _ hsame => ?_
      rw [← hsame]
      exact ih hstages next
  exact hfrom {}

end Build.Lockstep

/-! ### Documents -/

/-- Two workshops with disks alongside each other, whose renderers have one limit. -/
structure Workshop.Alongside (limit : Nat) (top : List String) (loose : String → Prop) (workshop other : Workshop) : Prop where
  disk : workshop.disk.Alongside top loose other.disk
  left : workshop.renderer.IsFaithful limit
  right : other.renderer.IsFaithful limit

section

variable {limit : Nat} {path : String} {start startOther : Workshop}

theorem Workshop.Alongside.mono (h : start.Alongside limit top loose startOther)
    (hmore : ∀ path, loose path → more path) :
    start.Alongside limit top more startOther := ⟨h.disk.mono hmore, h.left, h.right⟩

theorem Workshop.Alongside.writeBytes {content held : ByteArray} (hstart : start.Alongside limit top loose startOther)
    (h : path ∉ start.disk.output.written → content = held ∨ loose path ∧ SameErased content held) :
    EndAlike Eq (Build.writeBytes path content start).1 (Build.writeBytes path held startOther).1 ∧
      (Build.writeBytes path content start).2.Alongside limit top loose (Build.writeBytes path held startOther).2 := by
  obtain ⟨houtcome, hdisk⟩ := hstart.disk.writeBytes h
  refine ⟨?_, hdisk, hstart.left, hstart.right⟩
  rw [Build.writeBytes, Build.writeBytes]
  simp only [houtcome]
  cases (start.disk.writeBytes path content).1 with
  | error error => exact .error _
  | ok _ => exact .ok rfl

end

namespace Build.Lockstep

variable {limit : Nat} {path : String}

theorem render {α β : Type} {rendering : StateM Renderer α} {renderingOther : StateM Renderer β}
    (hleft : IsDetermined limit rendering) (hright : IsDetermined limit renderingOther) :
    Lockstep (Workshop.Alongside limit top loose)
      (fun value result => value = (rendering { limit }).1 ∧ result = (renderingOther { limit }).1)
      (Build.render rendering) (Build.render renderingOther) := by
  intro start startOther hstart
  refine ⟨.ok ⟨hleft.eq_new hstart.left, hright.eq_new hstart.right⟩, hstart.disk, ?_, ?_⟩
  · obtain ⟨_, hvalue⟩ := hleft
    exact (hvalue _ hstart.left).2
  · obtain ⟨_, hvalue⟩ := hright
    exact (hvalue _ hstart.right).2

theorem writeBytes {content held : ByteArray} (h : content = held ∨ loose path ∧ SameErased content held) :
    Lockstep (Workshop.Alongside limit top loose) Eq (Build.writeBytes path content) (Build.writeBytes path held) :=
  fun _ _ hstart => hstart.writeBytes fun _ => h

/-- A document is written as it is, or where it may differ in descriptions and summaries. -/
theorem document {rendering renderingOther : StateM Renderer Value} (hleft : IsDetermined limit rendering)
    (hright : IsDetermined limit renderingOther) (h : (rendering { limit }).1 = (renderingOther { limit }).1 ∨
      loose path ∧ (rendering { limit }).1.erased = (renderingOther { limit }).1.erased) :
    Lockstep (Workshop.Alongside limit top loose) Eq (Build.render rendering >>= Build.writeJson path)
      (Build.render renderingOther >>= Build.writeJson path) := by
  refine (render hleft hright).bind fun value result hvalues => writeBytes ?_
  obtain ⟨rfl, rfl⟩ := hvalues
  exact h.imp (congrArg Disk.jsonBytes) fun ⟨hloose, herased⟩ => ⟨hloose, .inr ⟨_, _, rfl, rfl, herased⟩⟩

end Build.Lockstep

end SchemaDocs
