import SchemaDocs.Proofs.Site.Stages

/-!
# Where a build can end

A step of a build follows a plan if it writes files at the paths of the plan in turn, up to the first
that cannot be written, and fails for no other reason. Steps in sequence follow the plans one behind
the other, so the paths that come before a failure are known without knowing what was written there.
-/

namespace SchemaDocs

open Json (Value)
open Markdown (Renderer)

/-- Files are written at the paths of a plan in turn, and one of them cannot be. -/
inductive Disk.Halts (start : Disk) (plan : List String) (cause : OutputError) (final : Disk) : Prop where
  | behind {journal : List Write} {middle : Disk} {path : String} {content : ByteArray} {rest : List String}
      (hplan : plan = journal.map Prod.fst ++ path :: rest) (hwritten : start.writeAll journal = .ok middle)
      (hhalt : middle.writeBytes path content = (.error cause, final))

/-- Files are written at all paths of a plan in turn. -/
def Disk.Completes (start : Disk) (plan : List String) (final : Disk) : Prop :=
  ∃ journal : List Write, journal.map Prod.fst = plan ∧ start.writeAll journal = .ok final

namespace Disk

variable {start middle final : Disk} {plan more : List String} {cause : OutputError}

theorem Completes.append (hplan : start.Completes plan middle) (hmore : middle.Completes more final) :
    start.Completes (plan ++ more) final := by
  obtain ⟨journal, rfl, hjournal⟩ := hplan
  obtain ⟨rest, rfl, hrest⟩ := hmore
  exact ⟨journal ++ rest, List.map_append, writeAll_append_eq_ok_iff.mpr ⟨middle, hjournal, hrest⟩⟩

theorem Halts.append (h : start.Halts plan cause final) (more : List String) :
    start.Halts (plan ++ more) cause final := by
  obtain ⟨rfl, hwritten, hhalt⟩ := h
  exact .behind (by rw [List.append_assoc, List.cons_append]) hwritten hhalt

private theorem Completes.halts (hplan : start.Completes plan middle) (hmore : middle.Halts more cause final) :
    start.Halts (plan ++ more) cause final := by
  obtain ⟨journal, rfl, hjournal⟩ := hplan
  obtain ⟨rfl, hwritten, hhalt⟩ := hmore
  exact .behind (by rw [List.map_append, List.append_assoc]) (writeAll_append_eq_ok_iff.mpr ⟨middle, hjournal, hwritten⟩)
    hhalt

theorem Halts.not_isOutputPath {path : String} (h : start.Halts plan (.notRelative path) final) :
    path ∈ plan ∧ ¬ isOutputPath path := by
  obtain ⟨hplan, -, hhalt⟩ := h
  obtain ⟨rfl, hpath, -⟩ := notRelative_of_writeBytes hhalt
  exact ⟨hplan ▸ List.mem_append_right _ List.mem_cons_self, hpath⟩

end Disk

namespace Build

variable {α β : Type} {start middle final : Workshop} {value : α} {error : BuildError}

/-- A step fails for no other reason than a file that cannot be written. -/
def FailsAtFile (step : Build α) : Prop := ∀ start error final, step.Fails start error final → ∃ cause, error = .output cause

namespace FailsAtFile

theorem pure (value : α) : (Pure.pure value : Build α).FailsAtFile := fun _ _ _ h => absurd h not_fails_pure

theorem render (rendering : StateM Renderer α) : (Build.render rendering).FailsAtFile := fun _ _ _ h => by
  cases (Prod.mk.inj h).1

theorem writeBytes (path : String) (content : ByteArray) :
    (Build.writeBytes path content).FailsAtFile := fun _ _ _ h => by
  obtain ⟨cause, hcause, -⟩ := fails_writeBytes h
  exact ⟨cause, hcause⟩

theorem bind {first : Build α} {next : α → Build β} (hfirst : first.FailsAtFile)
    (hnext : ∀ value, (next value).FailsAtFile) :
    (first >>= next).FailsAtFile := by
  intro start error final h
  rcases fails_bind_iff.mp h with h | ⟨value, middle, -, h⟩
  · exact hfirst start error final h
  · exact hnext value middle error final h

theorem race {step : α → Build Unit} (hstep : ∀ task, (step task).FailsAtFile) (schedule : Schedule) (tasks : List α) :
    (Build.race step schedule tasks).FailsAtFile := by
  intro start error final h
  obtain ⟨task, before, after, h⟩ := exists_of_race_fails h
  exact hstep task before error after h

end FailsAtFile

/-- A step writes files at the paths of a plan in turn and fails only where it cannot. -/
structure Follows (step : Build α) (plan : List String) : Prop where
  completes : ∀ {start value final}, step.Yields start value final → start.disk.Completes plan final.disk
  halts : ∀ {start error final}, step.Fails start error final →
    ∃ cause, error = .output cause ∧ start.disk.Halts plan cause final.disk

private theorem follows_pure (value : α) : (pure value : Build α).Follows [] where
  completes h := by
    obtain ⟨-, rfl⟩ := yields_pure_iff.mp h
    exact ⟨[], rfl, rfl⟩
  halts h := absurd h not_fails_pure

private theorem follows_render (rendering : StateM Renderer α) : (render rendering).Follows [] where
  completes h := ⟨[], rfl, by rw [(isRendered_of_yields h).2]; rfl⟩
  halts h := by
    cases (Prod.mk.inj h).1

private theorem follows_writeJson (path : String) (value : Value) : (writeJson path value).Follows [path] where
  completes h := ⟨[(path, Disk.jsonBytes value)], rfl, writeAll_of_yields h⟩
  halts h := by
    obtain ⟨cause, hcause, hwrite⟩ := fails_writeBytes h
    have hplan : [path] = ([] : List Write).map Prod.fst ++ path :: [] := rfl
    exact ⟨cause, hcause, .behind hplan rfl hwrite⟩

namespace Follows

variable {plan more : List String}

theorem bind {first : Build α} {next : α → Build β} (hfirst : first.Follows plan)
    (hnext : ∀ value, (next value).Follows more) : (first >>= next).Follows (plan ++ more) where
  completes h := by
    obtain ⟨value, middle, hvalue, hresult⟩ := yields_bind_iff.mp h
    exact (hfirst.completes hvalue).append ((hnext value).completes hresult)
  halts h := by
    rcases fails_bind_iff.mp h with h | ⟨value, middle, hvalue, h⟩
    · obtain ⟨cause, hcause, hhalts⟩ := hfirst.halts h
      exact ⟨cause, hcause, hhalts.append more⟩
    · obtain ⟨cause, hcause, hhalts⟩ := (hnext value).halts h
      exact ⟨cause, hcause, (hfirst.completes hvalue).halts hhalts⟩

private theorem bind_pure {first : Build α} (hfirst : first.Follows plan) (result : α → β) :
    (first >>= fun value => pure (result value)).Follows plan := by
  have h := hfirst.bind fun value => follows_pure (result value)
  rwa [List.append_nil] at h

theorem forM {step : α → Build Unit} {path : α → String} (hstep : ∀ item, (step item).Follows [path item])
    (items : List α) : (items.forM step).Follows (items.map path) := by
  induction items with
  | nil => exact follows_pure ()
  | cons item items ih => exact (hstep item).bind fun _ => ih

end Follows

end Build

/-- The paths of the reference in the order in which they are written. -/
def Registry.referencePaths (registry : Registry) : List String := "data/index.json" :: registry.byStages.map Entry.path

/-- The paths of pages and of the navigation tree in the order in which they are written. -/
def pagePaths (sources : List SourcePage) : List String := sources.map SourcePage.documentPath ++ [Stage.treePath]

namespace Stage

open Build (FailsAtFile Follows Fails fails_bind_iff follows_pure follows_render follows_writeJson)

variable {context : Context} {start final : Workshop} {error : BuildError} {report : Report}

theorem failsAtFile_writeEntry (entry : Entry) : (writeEntry context entry).FailsAtFile :=
  (FailsAtFile.render _).bind fun _ => .writeBytes _ _

private theorem follows_index : (index.run context).Follows ["data/index.json"] :=
  (follows_render _).bind fun _ => (follows_writeJson _ _).bind_pure _

private theorem follows_ofKind (name : String) (kind : Kind) :
    ((ofKind name kind).run context).Follows ((context.registry.declaring kind).map Entry.path) := by
  have hentry (entry : Entry) : (writeEntry context entry).Follows [entry.path] :=
    (follows_render _).bind fun _ => follows_writeJson _ _
  exact (Follows.forM hentry _).bind_pure _

private theorem follows_pages (sources : List SourcePage) (tree : PageTree) (report : Report) :
    Follows (do sources.forM writePage; Build.writeJson treePath tree.view.toJson; return report) (pagePaths sources) := by
  have hpage (source : SourcePage) : (writePage source).Follows [source.documentPath] :=
    (follows_render _).bind fun _ => follows_writeJson _ _
  exact (Follows.forM hpage sources).bind fun _ => (follows_writeJson _ _).bind_pure _

private theorem follows_runAll {stages : List Stage} {plans : List (List String)}
    (h : List.Forall₂ (fun stage plan => (stage.run context).Follows plan) stages plans) (given : Report) :
    Follows (stages.foldlM (fun report stage => do return report.add (← stage.run context)) given) plans.flatten := by
  induction h generalizing given with
  | nil => exact follows_pure given
  | cons hstage _ ih =>
    rw [List.foldlM_cons, List.flatten_cons]
    exact (hstage.bind_pure _).bind ih

private theorem failsAtFile_runAll {stages : List Stage} (h : ∀ stage ∈ stages, (stage.run context).FailsAtFile) :
    (runAll context stages).FailsAtFile := by
  have hfrom (given : Report) : FailsAtFile (stages.foldlM (fun report stage => do return report.add (← stage.run context)) given) := by
    induction stages generalizing given with
    | nil => exact .pure given
    | cons stage stages ih =>
      obtain ⟨hstage, hstages⟩ := List.forall_mem_cons.mp h
      rw [List.foldlM_cons]
      exact (hstage.bind fun _ => .pure _).bind fun _ => ih hstages _
  exact hfrom {}

private theorem failsAtFile_scheduledReference (schedule : Kind → Schedule) :
    (runAll context (scheduledReference schedule)).FailsAtFile := by
  have hkind (name : String) (kind : Kind) (schedule : Schedule) : ((ofKind name kind schedule).run context).FailsAtFile :=
    (FailsAtFile.race failsAtFile_writeEntry _ _).bind fun _ => .pure _
  refine failsAtFile_runAll fun stage hstage => ?_
  simp only [scheduledReference, List.mem_cons, List.not_mem_nil, or_false] at hstage
  rcases hstage with rfl | rfl | rfl | rfl | rfl
  · exact (FailsAtFile.render _).bind fun _ => (FailsAtFile.writeBytes _ _).bind fun _ => .pure _
  · exact hkind _ _ _
  · exact hkind _ _ _
  · exact hkind _ _ _
  · exact hkind _ _ _

theorem follows_reference : (runAll context reference).Follows context.registry.referencePaths := by
  have hplans : [["data/index.json"], (context.registry.declaring .enum).map Entry.path,
      (context.registry.declaring .message).map Entry.path, (context.registry.declaring .service).map Entry.path,
      (context.registry.declaring .proto).map Entry.path].flatten = context.registry.referencePaths := by
    simp [Registry.referencePaths, Registry.byStages]
  rw [← hplans]
  exact follows_runAll (.cons follows_index (.cons (follows_ofKind _ _) (.cons (follows_ofKind _ _)
    (.cons (follows_ofKind _ _) (.cons (follows_ofKind _ _) .nil))))) {}

/-- How the stages of a site fail. The reference ends at one of its files, or else the pages are those
that are found behind it, and either their tree has a collision or one of their files cannot be
written. -/
inductive HasFailed (context : Context) (start : Disk) : BuildError → Disk → Prop where
  | reference {cause : OutputError} {final : Disk} (hhalts : start.Halts context.registry.referencePaths cause final) :
      HasFailed context start (.output cause) final
  | navigation {final : Disk} {collision : Collision}
      (hreference : start.Completes context.registry.referencePaths final)
      (hcollision : PageTree.merge context.title (context.foundPages final.files) context.registry = .error collision) :
      HasFailed context start (.navigation collision) final
  | pages {middle final : Disk} {cause : OutputError}
      (hreference : start.Completes context.registry.referencePaths middle)
      (hhalts : middle.Halts (pagePaths (context.foundPages middle.files)) cause final) :
      HasFailed context start (.output cause) final

/-- The pages end with a collision, or at one of the files of the pages that are found. -/
theorem fails_pages (h : (pages.run context).Fails start error final) :
    (∃ collision, error = .navigation collision ∧ final.disk = start.disk ∧
      PageTree.merge context.title (context.foundPages start.disk.files) context.registry = .error collision) ∨
    ∃ cause, error = .output cause ∧
      start.disk.Halts (pagePaths (context.foundPages start.disk.files)) cause final.disk := by
  rcases fails_bind_iff.mp h with h | ⟨sources, middle, hsources, h⟩
  · cases (Prod.mk.inj h).1
  · obtain ⟨hfound, rfl⟩ := Prod.mk.inj hsources
    obtain rfl : context.foundPages start.disk.files = sources := Except.ok.inj hfound
    split at h
    · rename_i collision hcollision
      obtain ⟨herror, rfl⟩ := Prod.mk.inj h
      exact .inl ⟨collision, (Except.error.inj herror).symm, rfl, hcollision⟩
    · exact .inr ((follows_pages _ _ _).halts h)

theorem hasFailed_of_runAll (h : (runAll context standard).Fails start error final) :
    HasFailed context start.disk error final.disk := by
  rw [standard, runAll_scheduled] at h
  rcases fails_bind_iff.mp h with h | ⟨_, middle, hreference, h⟩
  · obtain ⟨cause, rfl, hhalts⟩ := follows_reference.halts h
    exact .reference hhalts
  · have hreference := follows_reference.completes hreference
    rcases fails_bind_iff.mp h with h | ⟨_, _, _, h⟩
    · rcases fails_pages h with ⟨collision, rfl, hfinal, hcollision⟩ | ⟨cause, rfl, hhalts⟩
      · rw [hfinal]
        exact .navigation hreference hcollision
      · exact .pages hreference hhalts
    -- adding up the reports cannot fail, so that it is the pages that do
    · exact absurd h Build.not_fails_pure

/-- However the documents of a kind are shared, the stages fail at a file, or with a collision of pages behind
the whole reference. -/
theorem fails_scheduled {schedule : Kind → Schedule}
    (h : (runAll context (scheduled schedule)).Fails start error final) :
    (∃ cause, error = .output cause) ∨ ∃ collision, error = .navigation collision ∧
      start.disk.Completes ("data/index.json" :: (context.registry.scheduled schedule).map Entry.path) final.disk ∧
      PageTree.merge context.title (context.foundPages final.disk.files) context.registry = .error collision := by
  rw [runAll_scheduled] at h
  rcases fails_bind_iff.mp h with h | ⟨_, middle, hreference, h⟩
  · exact .inl (failsAtFile_scheduledReference schedule _ _ _ h)
  · rcases fails_bind_iff.mp h with h | ⟨_, _, _, h⟩
    · rcases fails_pages h with ⟨collision, rfl, hfinal, hcollision⟩ | ⟨cause, rfl, -⟩
      · obtain ⟨-, view, documents, -, hdocuments, hwritten⟩ := writes_reference hreference
        have hpaths := map_eq_map_of_forall₂ (fun _ _ hdocument => hdocument.path.symm) hdocuments
        rw [hfinal]
        refine .inr ⟨collision, rfl, ⟨_, ?_, hwritten⟩, hcollision⟩
        rw [hpaths, List.map_cons, List.map_cons, List.map_map]
        rfl
      · exact .inl ⟨cause, rfl⟩
    · exact absurd h Build.not_fails_pure

/-- Where a file cannot be written, it is one of the reference, or one of the pages found behind it. -/
theorem halts_of_runAll {cause : OutputError} (h : (runAll context standard).Fails start (.output cause) final) :
    start.disk.Halts context.registry.referencePaths cause final.disk ∨
      ∃ middle, start.disk.Completes context.registry.referencePaths middle ∧
        middle.Halts (pagePaths (context.foundPages middle.files)) cause final.disk := by
  generalize herror : BuildError.output cause = error at h
  cases hasFailed_of_runAll h with
  | reference hhalts =>
    obtain rfl := BuildError.output.inj herror
    exact .inl hhalts
  | navigation => cases herror
  | pages hreference hhalts =>
    obtain rfl := BuildError.output.inj herror
    exact .inr ⟨_, hreference, hhalts⟩

end Stage

end SchemaDocs
