import SchemaDocs.Proofs.Site.Journal
import Mathlib.Data.List.Induction
import Mathlib.Data.String.Basic

/-!
# Requests to an output directory

An output directory answers each request to write a file, and goes on whatever the answer is. The
paths that it has claimed are then the accepted ones among those asked for, also where writing has
failed, and the files differ from those before only where a request has succeeded. Each request is
answered with regard to the ones before it; `IsServed.answer` is the step that keeps all this.
-/

namespace SchemaDocs

/-- A file that is asked to be written, with its bytes or as a JSON value. -/
inductive Request where
  | bytes (path : String) (content : ByteArray)
  | json (path : String) (value : Json.Value)

namespace Request

def path : Request → String
  | .bytes path _ => path
  | .json path _ => path

def content : Request → ByteArray
  | .bytes _ content => content
  | .json _ value => Disk.jsonBytes value

def apply (disk : Disk) : Request → Except OutputError Unit × Disk
  | .bytes path content => disk.writeBytes path content
  | .json path value => disk.writeJson path value

private theorem ends_apply (disk : Disk) (request : Request) :
    disk.Ends request.path request.content (request.apply disk).1 (request.apply disk).2 := by
  cases request with
  | bytes path content => exact disk.ends_writeBytes path content
  | json path value => exact disk.ends_writeBytes path (Disk.jsonBytes value)

end Request

abbrev Call := Request × Except OutputError Unit

namespace Call

def path (call : Call) : String := call.1.path

def succeeded (call : Call) : Bool :=
  match call.2 with
  | .ok _ => true
  | .error _ => false

theorem succeeded_iff {call : Call} : call.succeeded ↔ call.2 = .ok () := by
  obtain ⟨request, outcome⟩ := call
  cases outcome <;> simp [succeeded]

/-- A request for a path is answered as it is due behind requests for the given paths. -/
inductive IsDue (earlier : List String) (path : String) : Except OutputError Unit → Prop where
  | notRelative (hpath : ¬ isOutputPath path) : IsDue earlier path (.error (.notRelative path))
  | duplicate (hpath : isOutputPath path) (hearlier : path ∈ earlier) : IsDue earlier path (.error (.duplicate path))
  | failed (hpath : isOutputPath path) (hnew : path ∉ earlier) (reason : String) :
      IsDue earlier path (.error (.failed reason))
  | written (hpath : isOutputPath path) (hnew : path ∉ earlier) : IsDue earlier path (.ok ())

end Call

/-- Each call is answered as it is due behind the calls before it. -/
inductive AreDue : List Call → Prop where
  | nil : AreDue []
  | call {calls : List Call} {call : Call} (h : AreDue calls) (hcall : Call.IsDue (calls.map Call.path) call.path call.2) :
      AreDue (calls ++ [call])

namespace Disk

def serve : List Request → Disk → List Call × Disk
  | [], disk => ([], disk)
  | request :: requests, disk =>
    let (answer, disk) := request.apply disk
    let (calls, disk) := disk.serve requests
    ((request, answer) :: calls, disk)

theorem serve_append_singleton (requests : List Request) (request : Request) (disk : Disk) :
    disk.serve (requests ++ [request]) =
      ((disk.serve requests).1 ++ [(request, (request.apply (disk.serve requests).2).1)],
        (request.apply (disk.serve requests).2).2) := by
  induction requests generalizing disk with
  | nil => rfl
  | cons first requests ih =>
    simp only [List.cons_append, serve, ih]

private theorem requests_serve (requests : List Request) (disk : Disk) :
    (disk.serve requests).1.map Prod.fst = requests := by
  induction requests generalizing disk with
  | nil => rfl
  | cons request requests ih =>
    rw [serve, List.map_cons, ih]

end Disk

private theorem pairwise_insertPath {path : String} {paths : List String} (hpath : path ∉ paths)
    (h : paths.Pairwise (· < ·)) :
    (insertPath path paths).Pairwise (· < ·) := by
  induction paths with
  | nil => exact List.pairwise_singleton _ _
  | cons p paths ih =>
    obtain ⟨hp, hpaths⟩ := List.pairwise_cons.mp h
    rw [List.mem_cons, not_or] at hpath
    rw [insertPath, if_neg hpath.1]
    split
    · rename_i hlt
      exact List.pairwise_cons.mpr ⟨List.forall_mem_cons.mpr ⟨hlt, fun q hq => hlt.trans (hp q hq)⟩, h⟩
    · rename_i hle
      refine List.pairwise_cons.mpr ⟨fun q hq => ?_, ih hpath.2 hpaths⟩
      rcases List.mem_cons.mp ((insertPath_perm hpath.2).mem_iff.mp hq) with rfl | hq
      · exact lt_of_le_of_ne (not_lt.mp hle) (Ne.symm hpath.1)
      · exact hp q hq

namespace OutputDirectory

def top (output : OutputDirectory) (files : FileSystem) : List String :=
  FileSystem.walk (files.start output.root) (Text.pieces '/' output.root)

private theorem ne_of_locate {output : OutputDirectory} {files : FileSystem} {left right : String} {place : List String}
    (hleft : isOutputPath left) (hright : isOutputPath right) (hne : left ≠ right)
    (h : files.locate (output.location left) = .ok place) : files.locate (output.location right) ≠ .ok place := by
  intro hother
  have hsame : output.place files left = output.place files right :=
    (eq_place_of_locate hleft h).symm.trans (eq_place_of_locate hright hother)
  exact hne (place_injective hsame)

end OutputDirectory

/-- What calls have made of a disk whose output directory had claimed nothing. -/
structure IsServed (start final : Disk) (calls : List Call) : Prop where
  root : final.output.root = start.output.root
  answers : AreDue calls
  sorted : final.output.written.Pairwise (· < ·)
  /-- The paths that are accepted stay claimed, whatever their requests come to. -/
  claimed : ∀ path, path ∈ final.output.written ↔ isOutputPath path ∧ path ∈ calls.map Call.path
  /-- No path is written twice. -/
  once : ((calls.filter Call.succeeded).map Call.path).Nodup
  held : ∀ call ∈ calls, call.succeeded → final.files.read (start.output.location call.path) = .ok call.1.content
  /-- All files but those written are as they were. -/
  alters : start.files.Alters final.files
    ((calls.filter Call.succeeded).map fun call => start.output.place start.files call.path)

private theorem Call.IsDue.accepted {earlier : List String} {path : String} {outcome : Except OutputError Unit}
    (h : IsDue earlier path outcome) (hok : outcome = .ok ()) : isOutputPath path := by
  cases h with
  | notRelative | duplicate | failed => cases hok
  | written hpath => exact hpath

private theorem AreDue.accepted {calls : List Call} (h : AreDue calls) :
    ∀ call ∈ calls, call.succeeded → isOutputPath call.path := by
  induction h with
  | nil => exact nofun
  | call _ hlast ih =>
    intro call hcall hsucceeded
    rcases List.mem_append.mp hcall with hcall | hcall
    · exact ih call hcall hsucceeded
    · obtain rfl := List.mem_singleton.mp hcall
      exact hlast.accepted (Call.succeeded_iff.mp hsucceeded)

namespace IsServed

variable {start middle final : Disk} {calls : List Call} {request : Request}

theorem refl (files : FileSystem) (root : String) : IsServed ⟨files, { root }⟩ ⟨files, { root }⟩ [] where
  root := rfl
  answers := .nil
  sorted := .nil
  claimed path := by simp
  once := .nil
  held := nofun
  alters := .refl files

private theorem fail (h : IsServed start middle calls) {error : OutputError}
    (hdue : Call.IsDue (calls.map Call.path) request.path (.error error))
    (hroot : final.output.root = middle.output.root) (hsorted : final.output.written.Pairwise (· < ·))
    (hclaimed : ∀ path, path ∈ final.output.written ↔
      path ∈ middle.output.written ∨ isOutputPath path ∧ path = request.path)
    (hfiles : middle.files.Alters final.files []) : IsServed start final (calls ++ [(request, .error error)]) where
  root := hroot.trans h.root
  answers := .call h.answers hdue
  sorted := hsorted
  claimed path := by
    rw [hclaimed, h.claimed, List.map_append, List.mem_append, List.map_singleton, List.mem_singleton, and_or_left]
    rfl
  once := by
    rw [List.filter_append, List.filter_singleton]
    exact (List.append_nil _).symm ▸ h.once
  held call hcall hsucceeded := by
    rcases List.mem_append.mp hcall with hcall | hcall
    · exact hfiles.read (h.held call hcall hsucceeded) fun _ _ => List.not_mem_nil
    · rw [List.mem_singleton.mp hcall] at hsucceeded
      cases hsucceeded
  alters := by
    have halters := h.alters.trans hfiles
    rw [List.append_nil] at halters
    rw [List.filter_append, List.filter_singleton]
    exact (List.append_nil _).symm ▸ halters

/-- A request that succeeds makes its file and leaves the others alone. -/
theorem succeed (h : IsServed start middle calls) (hpath : isOutputPath request.path)
    (hnew : request.path ∉ middle.output.written) {files : FileSystem}
    (hfiles : middle.files.Alters files [middle.output.place middle.files request.path])
    (hlocate : files.locate (middle.output.location request.path) =
      .ok (middle.output.place middle.files request.path))
    (hcontent : files.root.bareAt? (middle.output.place middle.files request.path) = some (.file request.content)) :
    IsServed start ⟨files, { middle.output with written := insertPath request.path middle.output.written }⟩
      (calls ++ [(request, .ok ())]) := by
  have hplace (path : String) : middle.output.place middle.files path = start.output.place start.files path := by
    rw [OutputDirectory.place_of_workingDirectory h.alters.workingDirectory, OutputDirectory.place_of_root h.root]
  rw [OutputDirectory.location_of_root h.root] at hlocate
  rw [hplace] at hfiles hlocate hcontent
  have hunasked : request.path ∉ calls.map Call.path := fun hasked => hnew ((h.claimed _).mpr ⟨hpath, hasked⟩)
  have hlast : [((request, .ok ()) : Call)].filter Call.succeeded = [(request, .ok ())] := rfl
  refine ⟨h.root, .call h.answers (.written hpath hunasked), pairwise_insertPath hnew h.sorted, fun path => ?_, ?_, ?_, ?_⟩
  · rw [(insertPath_perm hnew).mem_iff, List.mem_cons, h.claimed, List.map_append, List.mem_append, List.map_singleton,
      List.mem_singleton]
    constructor
    · rintro (rfl | ⟨haccepted, hasked⟩)
      · exact ⟨hpath, .inr rfl⟩
      · exact ⟨haccepted, .inl hasked⟩
    · rintro ⟨haccepted, hasked | hsame⟩
      · exact .inr ⟨haccepted, hasked⟩
      · exact .inl hsame
  · rw [List.filter_append, hlast, List.map_append, List.nodup_append_comm, List.map_singleton, List.singleton_append,
      List.nodup_cons]
    exact ⟨fun hmem => hunasked (List.map_subset _ (List.filter_subset_self _) hmem), h.once⟩
  · intro call hcall hsucceeded
    rcases List.mem_append.mp hcall with hcall | hcall
    -- an earlier file lies elsewhere, since its path is another one
    · refine hfiles.read (h.held call hcall hsucceeded) fun place hfound hwritten => hunasked ?_
      have haccepted := h.answers.accepted call hcall hsucceeded
      rw [← OutputDirectory.location_of_root h.root] at hfound
      rw [OutputDirectory.eq_place_of_locate haccepted hfound, hplace, List.mem_singleton] at hwritten
      rw [← OutputDirectory.place_injective hwritten]
      exact List.mem_map_of_mem hcall
    · obtain rfl := List.mem_singleton.mp hcall
      exact FileSystem.read_eq_ok_iff.mpr ⟨_, hlocate, hcontent⟩
  · rw [List.filter_append, hlast, List.map_append]
    exact h.alters.trans hfiles

private theorem answer (h : IsServed start middle calls) (request : Request) :
    IsServed start (request.apply middle).2 (calls ++ [(request, (request.apply middle).1)]) := by
  have hends := request.ends_apply middle
  generalize (request.apply middle).1 = outcome at hends ⊢
  generalize (request.apply middle).2 = final at hends ⊢
  have hasked (hpath : isOutputPath request.path) :
      request.path ∈ middle.output.written ↔ request.path ∈ calls.map Call.path := by
    rw [h.claimed]
    exact and_iff_right hpath
  cases hends with
  | notRelative hpath =>
    refine h.fail (.notRelative hpath) rfl h.sorted (fun path => (or_iff_left ?_).symm) (.refl _)
    rintro ⟨haccepted, rfl⟩
    exact hpath haccepted
  | duplicate hpath hclaimed =>
    refine h.fail (.duplicate hpath ((hasked hpath).mp hclaimed)) rfl h.sorted (fun path => (or_iff_left_of_imp ?_).symm)
      (.refl _)
    rintro ⟨-, rfl⟩
    exact hclaimed
  | failed hpath hunclaimed reason hfiles =>
    refine h.fail (.failed hpath (fun hmem => hunclaimed ((hasked hpath).mpr hmem)) reason) rfl
      (pairwise_insertPath hunclaimed h.sorted) (fun path => ?_) hfiles
    rw [(insertPath_perm hunclaimed).mem_iff, List.mem_cons, or_comm]
    exact or_congr_right ⟨fun hsame => ⟨hsame ▸ hpath, hsame⟩, And.right⟩
  | written hpath hunclaimed hfiles hlocate hcontent => exact h.succeed hpath hunclaimed hfiles hlocate hcontent

private theorem outside (h : IsServed start final calls) {place : List String} {content : ByteArray}
    (hplace : ¬ start.output.top start.files <+: place) :
    final.files.root.get? place = some (.file content) ↔ start.files.root.get? place = some (.file content) := by
  rw [← Tree.bareAt?_eq_file_iff, ← Tree.bareAt?_eq_file_iff]
  refine h.alters.file_iff fun hmem => hplace ?_
  obtain ⟨call, -, rfl⟩ := List.mem_map.mp hmem
  exact ⟨_, rfl⟩

private theorem spared (h : IsServed start final calls) {place : List String} {content : ByteArray}
    (hplace : ∀ call ∈ calls, call.succeeded → start.output.place start.files call.path ≠ place) :
    final.files.root.get? place = some (.file content) ↔ start.files.root.get? place = some (.file content) := by
  rw [← Tree.bareAt?_eq_file_iff, ← Tree.bareAt?_eq_file_iff]
  refine h.alters.file_iff fun hmem => ?_
  obtain ⟨call, hcall, hsame⟩ := List.mem_map.mp hmem
  obtain ⟨hcall, hsucceeded⟩ := List.mem_filter.mp hcall
  exact hplace call hcall hsucceeded hsame

end IsServed

/-- A request that is refused, for its path or because the path is claimed, changes nothing. -/
theorem Request.eq_of_refused {disk next : Disk} {request : Request} {path : String}
    (h : request.apply disk = (.error (.notRelative path), next) ∨ request.apply disk = (.error (.duplicate path), next)) :
    next = disk := by
  have hends := request.ends_apply disk
  rcases h with h | h
  · rw [h] at hends
    cases hends
    rfl
  · rw [h] at hends
    cases hends
    rfl

private theorem Disk.isServed_serve (files : FileSystem) (root : String) (requests : List Request) :
    IsServed ⟨files, { root }⟩ (serve requests ⟨files, { root }⟩).2 (serve requests ⟨files, { root }⟩).1 := by
  induction requests using List.reverseRecOn with
  | nil => exact .refl files root
  | append_singleton requests request ih =>
    rw [serve_append_singleton]
    exact ih.answer request

/-- Over any requests to a new output directory, the paths claimed are the accepted ones in order, each
file that is written holds the bytes of its one request that succeeded, and all other files are as
they were; so are all files outside the directory. A request that is refused changes nothing, and
different paths never lead to one file. -/
theorem Disk.serve_account (files : FileSystem) (root : String) (requests : List Request) :
    ∃ calls final, serve requests ⟨files, { root }⟩ = (calls, final) ∧ calls.map Prod.fst = requests ∧
      IsServed ⟨files, { root }⟩ final calls ∧
      (∀ place content, ¬ OutputDirectory.top { root } files <+: place →
        (final.files.root.get? place = some (.file content) ↔ files.root.get? place = some (.file content))) ∧
      (∀ place content, (∀ call ∈ calls, call.succeeded → OutputDirectory.place { root } files call.path ≠ place) →
        (final.files.root.get? place = some (.file content) ↔ files.root.get? place = some (.file content))) ∧
      (∀ (request : Request) (disk next : Disk) (path : String),
        request.apply disk = (.error (.notRelative path), next) ∨ request.apply disk = (.error (.duplicate path), next) →
          next = disk) ∧
      ∀ left right, isOutputPath left → isOutputPath right → left ≠ right → ∀ (others : FileSystem) (place : List String),
        others.locate (OutputDirectory.location { root } left) = .ok place →
          others.locate (OutputDirectory.location { root } right) ≠ .ok place := by
  have hserved := isServed_serve files root requests
  exact ⟨_, _, rfl, requests_serve requests _, hserved, fun _ _ => hserved.outside, fun _ _ => hserved.spared,
    fun _ _ _ _ => Request.eq_of_refused, fun _ _ hleft hright hne _ _ => OutputDirectory.ne_of_locate hleft hright hne⟩

end SchemaDocs
