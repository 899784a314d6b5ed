import SchemaDocs.Proofs.Site.Duties
import SchemaDocs.Proofs.Site.Orders
import SchemaDocs.Proofs.Site.Paths

/-!
# Schedules

The documents of a site are tasks of their own. A schedule carries them out in some order, whichever stage
they belong to, or runs the stages in some order. All schedules come to the same: the same documents with
the same contents, the same claims, reports and counts of the renderer, or else no schedule succeeds.
-/

namespace SchemaDocs

open FileSystem (Leads)

/-- The same files are there, the same paths are claimed, and the renderers count the same. -/
structure Workshop.Agrees (left right : Workshop) : Prop where
  files : ∀ place, left.disk.files.root.bareAt? place = right.disk.files.root.bareAt? place
  written : left.disk.output.written = right.disk.output.written
  cached : left.renderer.cached = right.renderer.cached
  renders : left.renderer.renders = right.renderer.renders

/-- Two ways through a build both succeed, give one value and leave the same behind, or both end at a file
that cannot be written. -/
def Build.Agree {α : Type} (left right : Build α) (start : Workshop) : Prop :=
  (∃ value leftEnd rightEnd, left.Yields start value leftEnd ∧ right.Yields start value rightEnd ∧
    leftEnd.Agrees rightEnd) ∨
  ∃ leftCause rightCause leftEnd rightEnd, left.Fails start (.output leftCause) leftEnd ∧
    right.Fails start (.output rightCause) rightEnd

private theorem Build.agree_of_fulfils {limit : Nat} {left right : Build Report} {duty other : Duty} {start : Workshop}
    {top : List String} (hleft : left.Fulfils limit duty) (hright : right.Fulfils limit other) (halike : duty.Alike other)
    (hrenderer : start.renderer.IsFaithful limit)
    (hleads : start.disk.files.Leads start.disk.output.root top) : left.Agree right start := by
  cases hwritten : start.disk.writeAll duty.journal with
  | ok disk =>
    obtain ⟨again, hagain, hfiles, houtput⟩ := Disk.writeAll_of_perm hleads hwritten halike.journal
    have hyields := hleft.yields hrenderer hwritten
    have hyieldsOther := hright.yields hrenderer hagain
    rw [← halike.report] at hyieldsOther
    obtain ⟨hcached, hrenders⟩ := Markdown.Renderer.counts_asked_of_perm halike.texts start.renderer
    exact .inl ⟨_, _, _, hyields, hyieldsOther, hfiles, by rw [houtput], hcached, hrenders⟩
  | error error =>
    obtain ⟨cause, leftEnd, hfails⟩ := hleft.fails hrenderer hwritten
    cases hagain : start.disk.writeAll other.journal with
    | ok disk =>
      obtain ⟨_, hback, -⟩ := Disk.writeAll_of_perm hleads hagain halike.symm.journal
      rw [hwritten] at hback
      cases hback
    | error otherError =>
      obtain ⟨otherCause, rightEnd, hfailsOther⟩ := hright.fails hrenderer hagain
      exact .inr ⟨cause, otherCause, leftEnd, rightEnd, hfails, hfailsOther⟩

/-! ### Tasks -/

/-- A document of a site. -/
inductive Task where
  | index
  | entry (entry : Entry)
  | page (source : SourcePage)
  | navigation

namespace Task

variable {limit : Nat} {context : Context} {sources : List SourcePage} {tree : PageTree}

def run (context : Context) (tree : PageTree) : Task → Build Report
  | index => Stage.index.run context
  | entry declared => do
    Stage.writeEntry context declared
    return { documents := 1 }
  | page source => do
    Stage.writePage source
    return { pages := 1 }
  | navigation => do
    Build.writeJson Stage.treePath tree.view.toJson
    return { documents := 1 }

/-- Carries out tasks one behind the other and adds up what they report. -/
def runAll (context : Context) (tree : PageTree) (tasks : List Task) : Build Report :=
  tasks.foldlM (fun report task => do return report.add (← task.run context tree)) {}

/-- The documents of the reference, stage by stage, each kind in the order in which its documents are picked. -/
def reference (registry : Registry) (schedule : Kind → Schedule) : List (List Task) :=
  [[index], (inOrder (schedule .enum).picks (registry.declaring .enum)).map entry,
    (inOrder (schedule .message).picks (registry.declaring .message)).map entry,
    (inOrder (schedule .service).picks (registry.declaring .service)).map entry,
    (inOrder (schedule .proto).picks (registry.declaring .proto)).map entry]

/-- The documents of all stages. -/
def scheduled (registry : Registry) (schedule : Kind → Schedule) (sources : List SourcePage) : List (List Task) :=
  reference registry schedule ++ [sources.map page ++ [navigation]]

def byStages (registry : Registry) (sources : List SourcePage) : List (List Task) := scheduled registry (fun _ => {}) sources

def all (registry : Registry) (sources : List SourcePage) : List Task :=
  index :: (registry.entries.map entry ++ (sources.map page ++ [navigation]))

def duty (limit : Nat) (context : Context) (tree : PageTree) : Task → Duty
  | index => context.indexDuty limit
  | entry declared => declared.duty limit context.registry
  | page source => source.duty limit
  | navigation => tree.duty

def path : Task → String
  | index => "data/index.json"
  | entry declared => declared.path
  | page source => source.documentPath
  | navigation => Stage.treePath

theorem paths_total (tasks : List Task) :
    (Duty.total (tasks.map (duty limit context tree))).journal.map Prod.fst = tasks.map path := by
  induction tasks with
  | nil => rfl
  | cons task tasks ih =>
    have hfirst : (task.duty limit context tree).journal.map Prod.fst = [task.path] := by
      cases task <;> rfl
    show ((task.duty limit context tree).journal ++ (Duty.total (tasks.map (duty limit context tree))).journal).map Prod.fst =
      task.path :: tasks.map path
    rw [List.map_append, hfirst, ih]
    rfl

theorem reference_perm (registry : Registry) (schedule : Kind → Schedule) :
    (reference registry schedule).flatten.Perm (index :: registry.entries.map entry) := by
  have hentries := (registry.scheduled_perm schedule).map entry
  simp only [Registry.scheduled, List.map_append] at hentries
  simpa [reference] using hentries

theorem scheduled_perm (registry : Registry) (schedule : Kind → Schedule) (sources : List SourcePage) :
    (scheduled registry schedule sources).flatten.Perm (all registry sources) := by
  rw [scheduled, List.flatten_append, List.flatten_singleton]
  exact (reference_perm registry schedule).append_right _

private theorem fulfils_run (task : Task) : (task.run context tree).Fulfils limit (task.duty limit context tree) := by
  cases task with
  | index => exact Stage.fulfils_index
  | entry declared => exact (Stage.performs_writeEntry declared).bind_pure _
  | page source => exact (Stage.performs_writePage source).bind_pure _
  | navigation => exact (Build.Performs.writeJson _ _).bind_pure _

end Task

/-! ### All schedules -/

/-- The stages of every site, for pages that have been found. -/
def Stage.scheduledOn (schedule : Kind → Schedule) (sources : List SourcePage) : List Stage :=
  scheduledReference schedule ++ [pagesOn sources]

def Stage.standardOn (sources : List SourcePage) : List Stage := scheduledOn (fun _ => {}) sources

/-- The duty of the stages that write the reference, in which the tree does not occur. -/
def Context.referenceDuty (limit : Nat) (context : Context) (tree : PageTree) (schedule : Kind → Schedule) : Duty :=
  .total ((Task.reference context.registry schedule).map fun tasks => .total (tasks.map (Task.duty limit context tree)))

/-- The duty of the stages of every site. -/
def Context.duty (limit : Nat) (context : Context) (sources : List SourcePage) (tree : PageTree) : Duty :=
  .total ((Task.byStages context.registry sources).map fun tasks => .total (tasks.map (Task.duty limit context tree)))

section

variable {limit : Nat} {context : Context} {sources : List SourcePage} {tree : PageTree}

private theorem Task.alike_of_flatten {parts : List (List Task)} {tasks : List Task} (h : parts.flatten.Perm tasks) :
    (Duty.total (parts.map fun tasks => .total (tasks.map (duty limit context tree)))).Alike
      (.total (tasks.map (duty limit context tree))) := by
  have hflatten : parts.map (fun tasks => Duty.total (tasks.map (duty limit context tree))) =
      (parts.map (·.map (duty limit context tree))).map Duty.total := by
    rw [List.map_map]
    rfl
  rw [hflatten, ← Duty.total_flatten, ← List.map_flatten]
  exact Duty.alike_total (h.map _)

/-- What there is to do for the reference does not depend on how threads share the documents of a kind. -/
theorem Context.referenceDuty_alike (limit : Nat) (context : Context) (tree : PageTree) (schedule other : Kind → Schedule) :
    (context.referenceDuty limit tree schedule).Alike (context.referenceDuty limit tree other) :=
  (Task.alike_of_flatten (Task.reference_perm _ schedule)).trans (Task.alike_of_flatten (Task.reference_perm _ other)).symm

theorem Context.duty_alike :
    (context.duty limit sources tree).Alike (.total ((Task.all context.registry sources).map (Task.duty limit context tree))) :=
  Task.alike_of_flatten (Task.scheduled_perm _ _ _)

namespace Stage

open Build (Fulfils)

private theorem fulfils_each_reference (schedule : Kind → Schedule) :
    List.Forall₂ (fun stage duty => (stage.run context).Fulfils limit duty) (scheduledReference schedule)
      ((Task.reference context.registry schedule).map fun tasks => .total (tasks.map (Task.duty limit context tree))) := by
  have hkind (name : String) (kind : Kind) : ((ofKind name kind (schedule kind)).run context).Fulfils limit
      (.total (((inOrder (schedule kind).picks (context.registry.declaring kind)).map Task.entry).map
        (Task.duty limit context tree))) := by
    rw [List.map_map]
    exact fulfils_ofKind name kind (schedule kind)
  refine List.forall₂_map_right_iff.mpr
    (.cons ?_ (.cons (hkind _ _) (.cons (hkind _ _) (.cons (hkind _ _) (.cons (hkind _ _) .nil)))))
  rw [List.map_singleton, Duty.total_singleton]
  exact fulfils_index

private theorem fulfils_each_scheduledOn (schedule : Kind → Schedule)
    (htree : PageTree.merge context.title sources context.registry = .ok tree) :
    List.Forall₂ (fun stage duty => (stage.run context).Fulfils limit duty) (scheduledOn schedule sources)
      ((Task.scheduled context.registry schedule sources).map fun tasks => .total (tasks.map (Task.duty limit context tree))) := by
  have hpages : ((pagesOn sources).run context).Fulfils limit
      (.total ((sources.map Task.page ++ [Task.navigation]).map (Task.duty limit context tree))) := by
    rw [List.map_append, List.map_map]
    exact fulfils_pagesOn htree
  rw [scheduledOn, Task.scheduled, List.map_append]
  exact List.rel_append (fulfils_each_reference schedule) (.cons hpages .nil)

private theorem fulfils_foldlM {parts : List (Build Report)} {duties : List Duty}
    (h : List.Forall₂ (Fulfils limit) parts duties) :
    Fulfils limit (parts.foldlM (fun report part => do return report.add (← part)) {}) (.total duties) := by
  have hadd (report : Report) : Report.add {} report = report := by simp [Report.add]
  have hall := performs_foldlM h {}
  rwa [hadd] at hall

private theorem fulfils_runAll {stages : List Stage} {duties : List Duty}
    (h : List.Forall₂ (fun stage duty => (stage.run context).Fulfils limit duty) stages duties) :
    (runAll context stages).Fulfils limit (.total duties) := by
  have hall := fulfils_foldlM (List.forall₂_map_left_iff.mpr h : List.Forall₂ (Fulfils limit) (stages.map (·.run context)) duties)
  rwa [List.foldlM_map] at hall

theorem fulfils_reference (tree : PageTree) (schedule : Kind → Schedule) :
    (runAll context (scheduledReference schedule)).Fulfils limit (context.referenceDuty limit tree schedule) :=
  fulfils_runAll (fulfils_each_reference schedule)

theorem fulfils_standardOn (htree : PageTree.merge context.title sources context.registry = .ok tree) :
    (runAll context (standardOn sources)).Fulfils limit (context.duty limit sources tree) :=
  fulfils_runAll (fulfils_each_scheduledOn _ htree)

end Stage

end

/-- A way to write all documents of a site: one by one in some order, or stage by stage with the stages
in some order and the documents of a kind in parallel. -/
inductive IsSchedule (context : Context) (sources : List SourcePage) (tree : PageTree) : Build Report → Prop where
  | tasks {order : List Task} (horder : order.Perm (Task.all context.registry sources)) :
      IsSchedule context sources tree (Task.runAll context tree order)
  | stages {schedule : Kind → Schedule} {order : List Stage} (horder : order.Perm (Stage.scheduledOn schedule sources)) :
      IsSchedule context sources tree (Stage.runAll context order)

namespace IsSchedule

open Build (Fulfils)

variable {limit : Nat} {context : Context} {sources : List SourcePage} {tree : PageTree} {left right : Build Report}
  {start : Workshop} {top : List String}

theorem exists_duty (htree : PageTree.merge context.title sources context.registry = .ok tree)
    (h : IsSchedule context sources tree left) :
    ∃ duty, left.Fulfils limit duty ∧
      duty.Alike (.total ((Task.all context.registry sources).map (Task.duty limit context tree))) := by
  cases h with
  | tasks horder =>
    rename_i order
    have hparts : List.Forall₂ (Fulfils limit) (order.map (Task.run context tree)) (order.map (Task.duty limit context tree)) := by
      rw [List.forall₂_map_left_iff, List.forall₂_map_right_iff, List.forall₂_same]
      exact fun task _ => task.fulfils_run
    have hall := Stage.fulfils_foldlM hparts
    rw [List.foldlM_map] at hall
    exact ⟨_, hall, Duty.alike_total (horder.map _)⟩
  | stages horder =>
    -- the stages are matched with their tasks, in whichever order they stand
    obtain ⟨duties, hduties, hperm⟩ := List.perm_comp_forall₂ horder (Stage.fulfils_each_scheduledOn _ htree)
    exact ⟨_, Stage.fulfils_runAll hduties, (Duty.alike_total hperm).trans (Task.alike_of_flatten (Task.scheduled_perm _ _ _))⟩

/-- Whatever the order of the documents or of the stages, the site comes to the same. -/
theorem agree (htree : PageTree.merge context.title sources context.registry = .ok tree)
    (hrenderer : start.renderer.IsFaithful limit) (hleads : start.disk.files.Leads start.disk.output.root top)
    (hleft : IsSchedule context sources tree left) (hright : IsSchedule context sources tree right) :
    left.Agree right start := by
  obtain ⟨duty, hduty, halike⟩ := hleft.exists_duty htree
  obtain ⟨other, hother, halikeOther⟩ := hright.exists_duty htree
  exact Build.agree_of_fulfils hduty hother (halike.trans halikeOther.symm) hrenderer hleads

end IsSchedule

/-! ### Two schedules of a small site -/

namespace Sample

private theorem labelledWorkshop_leads :
    labelledWorkshop.disk.files.Leads labelledWorkshop.disk.output.root ["o"] := ⟨rfl, rfl⟩

private theorem merges : ((Registry.build schema).toOption.bind fun registry =>
    (PageTree.merge (settings.siteTitle schema) [labelledPage, refusedPage] registry).toOption).isSome := by
  decide +kernel

end Sample

/-- The stages in reverse, and the documents one by one in reverse. -/
theorem IsSchedule.agree_reverse :
    ∃ registry tree, Registry.build Sample.schema = .ok registry ∧
      PageTree.merge (Sample.settings.siteTitle Sample.schema) [Sample.labelledPage, Sample.refusedPage] registry = .ok tree ∧
      (Stage.runAll (Sample.settings.context Sample.schema registry)
        (Stage.standardOn [Sample.labelledPage, Sample.refusedPage]).reverse).Agree
        (Task.runAll (Sample.settings.context Sample.schema registry) tree
          (Task.all registry [Sample.labelledPage, Sample.refusedPage]).reverse)
        Sample.labelledWorkshop := by
  obtain ⟨tree, hmerges⟩ := Option.isSome_iff_exists.mp Sample.merges
  obtain ⟨registry, hregistry, htree⟩ := Option.bind_eq_some_iff.mp hmerges
  have htree := eq_ok_of_toOption htree
  refine ⟨registry, tree, eq_ok_of_toOption hregistry, htree, ?_⟩
  exact IsSchedule.agree htree (Markdown.Renderer.isFaithful_new 100) Sample.labelledWorkshop_leads
    (.stages (List.reverse_perm _)) (.tasks (List.reverse_perm _))

end SchemaDocs
