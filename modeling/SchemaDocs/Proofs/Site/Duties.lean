import Mathlib.Algebra.BigOperators.Group.List.Basic
import SchemaDocs.Proofs.Reference.Asked
import SchemaDocs.Proofs.Site.Contents
import SchemaDocs.Proofs.Site.Plans

/-!
# What a part of a build has to do

With a faithful renderer it is known before a part of a build runs which texts it asks for, which files
it writes and what they hold. This is its duty. It fails if one of the files cannot be written, and for
no other reason; otherwise the duty alone says what becomes of the disk and of the renderer.
-/

namespace SchemaDocs

open Json (Value)
open Markdown (Renderer)

variable {limit : Nat} {α β : Type} {value : α} {texts more : List String} {journal rest : List Write}

namespace Build

/-- A step asks for texts, writes the files of a journal in turn and gives a value, with any faithful
renderer of a limit. -/
structure Performs (limit : Nat) (step : Build α) (value : α) (texts : List String) (journal : List Write) : Prop where
  yields : ∀ {start : Workshop} {disk : Disk}, start.renderer.IsFaithful limit → start.disk.writeAll journal = .ok disk →
    step.Yields start value ⟨disk, start.renderer.asked texts⟩
  fails : ∀ {start : Workshop} {error : OutputError}, start.renderer.IsFaithful limit →
    start.disk.writeAll journal = .error error → ∃ cause final, step.Fails start (.output cause) final

namespace Performs

theorem pure (value : α) : Performs limit (Pure.pure value) value [] [] where
  yields {start disk} _ h := by
    obtain rfl := Except.ok.inj h
    rfl
  fails _ h := by cases h

theorem bind {first : Build α} {next : α → Build β} {result : β} (hfirst : first.Performs limit value texts journal)
    (hnext : (next value).Performs limit result more rest) :
    (first >>= next).Performs limit result (texts ++ more) (journal ++ rest) where
  yields hstart h := by
    obtain ⟨middle, hmiddle, h⟩ := Disk.writeAll_append_eq_ok_iff.mp h
    rw [Renderer.asked_append]
    exact yields_bind_iff.mpr ⟨value, _, hfirst.yields hstart hmiddle, hnext.yields (hstart.asked texts) h⟩
  fails {start error} hstart h := by
    rw [Disk.writeAll_append] at h
    cases hmiddle : start.disk.writeAll journal with
    | error _ =>
      obtain ⟨cause, final, hfinal⟩ := hfirst.fails hstart hmiddle
      exact ⟨cause, final, fails_bind_iff.mpr (.inl hfinal)⟩
    | ok middle =>
      rw [hmiddle] at h
      have hmiddleFaithful : (Workshop.mk middle (start.renderer.asked texts)).renderer.IsFaithful limit := hstart.asked texts
      obtain ⟨cause, final, hfinal⟩ := hnext.fails hmiddleFaithful h
      exact ⟨cause, final, fails_bind_iff.mpr (.inr ⟨value, _, hfirst.yields hstart hmiddle, hfinal⟩)⟩

theorem bind_pure {first : Build α} (hfirst : first.Performs limit value texts journal) (result : α → β) :
    (first >>= fun value => Pure.pure (result value)).Performs limit (result value) texts journal := by
  have h : (first >>= fun value => Pure.pure (result value)).Performs limit (result value) (texts ++ []) (journal ++ []) :=
    hfirst.bind (pure (result value))
  rwa [List.append_nil, List.append_nil] at h

theorem render {rendering : StateM Renderer α} (hdetermined : IsDetermined limit rendering)
    (hasks : Asks rendering texts) :
    (Build.render rendering).Performs limit (rendering { limit }).1 texts [] where
  yields {start disk} hstart h := by
    obtain rfl := Except.ok.inj h
    rw [Yields, ← hdetermined.eq_new hstart, ← hasks start.renderer]
    rfl
  fails _ h := by cases h

theorem writeJson (path : String) (value : Value) :
    (Build.writeJson path value).Performs limit () [] [SiteDocument.write (path, value)] where
  yields {start disk} _ h := by
    obtain ⟨middle, hmiddle, h⟩ := Disk.writeAll_cons_eq_ok_iff.mp h
    obtain rfl := Except.ok.inj h
    rw [Yields, Build.writeJson, Build.writeBytes, hmiddle]
    rfl
  fails {start _} _ h := by
    rw [SiteDocument.write, Disk.writeAll] at h
    split at h
    · rename_i cause disk hwrite
      refine ⟨cause, { start with disk }, ?_⟩
      rw [Fails, Build.writeJson, Build.writeBytes, hwrite]
      rfl
    · cases h

theorem document {rendering : StateM Renderer Value} (hdetermined : IsDetermined limit rendering)
    (hasks : Asks rendering texts) (path : String) :
    (Build.render rendering >>= Build.writeJson path).Performs limit () texts
      [SiteDocument.write (path, (rendering { limit }).1)] := by
  have h := (render hdetermined hasks).bind (writeJson path _)
  rwa [List.append_nil, List.nil_append] at h

theorem forM {step : α → Build Unit} {texts : α → List String} {journal : α → List Write}
    (hstep : ∀ item, (step item).Performs limit () (texts item) (journal item)) (items : List α) :
    (items.forM step).Performs limit () (items.flatMap texts) (items.flatMap journal) := by
  induction items with
  | nil => exact pure ()
  | cons item items ih => exact (hstep item).bind ih

theorem race {step : α → Build Unit} {texts : α → List String} {journal : α → List Write}
    (hstep : ∀ task, (step task).Performs limit () (texts task) (journal task)) (hfails : ∀ task, (step task).FailsAtFile)
    (schedule : Schedule) (tasks : List α) :
    (Build.race step schedule tasks).Performs limit () ((inOrder schedule.picks tasks).flatMap texts)
      ((inOrder schedule.picks tasks).flatMap journal) where
  yields hstart h := yields_race_iff.mpr ((forM hstep _).yields hstart h)
  fails {start _} hstart h := by
    obtain ⟨_, _, hordered⟩ := (forM hstep _).fails hstart h
    rcases hrun : Build.race step schedule tasks start with ⟨outcome, final⟩
    cases outcome with
    | ok _ => cases (yields_race_iff.mp hrun).symm.trans hordered
    | error error =>
      obtain ⟨cause, rfl⟩ := FailsAtFile.race hfails schedule tasks start error final hrun
      exact ⟨cause, final, hrun⟩

end Performs

end Build

/-! ### Duties -/

/-- What a part of a build reports, asks for and writes. -/
structure Duty where
  report : Report
  texts : List String
  journal : List Write

namespace Duty

variable {left middle right : Duty}

def none : Duty := ⟨{}, [], []⟩

def append (left right : Duty) : Duty :=
  ⟨left.report.add right.report, left.texts ++ right.texts, left.journal ++ right.journal⟩

def total (duties : List Duty) : Duty := duties.foldr append none

private theorem append_assoc (left middle right : Duty) :
    (left.append middle).append right = left.append (middle.append right) := by
  simp [append, Report.add, Nat.add_assoc]

theorem total_singleton (duty : Duty) : total [duty] = duty := by
  simp [total, none, append, Report.add]

theorem total_append (first rest : List Duty) : total (first ++ rest) = (total first).append (total rest) := by
  induction first with
  | nil => simp [total, none, append, Report.add]
  | cons duty first ih =>
    show duty.append (total (first ++ rest)) = (duty.append (total first)).append (total rest)
    rw [ih, append_assoc]

/-- Duties can be put together in parts. -/
theorem total_flatten (duties : List (List Duty)) : total duties.flatten = total (duties.map total) := by
  induction duties with
  | nil => rfl
  | cons first duties ih =>
    rw [List.flatten_cons, total_append, ih]
    rfl

/-- Two duties differ in nothing but the order of what is to be done. -/
structure Alike (left right : Duty) : Prop where
  report : left.report = right.report
  texts : left.texts.Perm right.texts
  journal : left.journal.Perm right.journal

theorem Alike.symm (h : left.Alike right) : right.Alike left := ⟨h.report.symm, h.texts.symm, h.journal.symm⟩

theorem Alike.trans (hleft : left.Alike middle) (hright : middle.Alike right) : left.Alike right :=
  ⟨hleft.report.trans hright.report, hleft.texts.trans hright.texts, hleft.journal.trans hright.journal⟩

theorem Alike.append {other next : Duty} (h : left.Alike right) (hother : other.Alike next) :
    (left.append other).Alike (right.append next) where
  report := by rw [Duty.append, Duty.append, h.report, hother.report]
  texts := h.texts.append hother.texts
  journal := h.journal.append hother.journal

private theorem alike_append_comm (left right : Duty) : (left.append right).Alike (right.append left) where
  report := by simp [append, Report.add, Nat.add_comm]
  texts := List.perm_append_comm
  journal := List.perm_append_comm

theorem alike_refl (duty : Duty) : duty.Alike duty := ⟨rfl, .refl _, .refl _⟩

/-- The order of duties does not matter to what they come to. -/
theorem alike_total {first rest : List Duty} (h : first.Perm rest) : (total first).Alike (total rest) := by
  induction h with
  | nil => exact alike_refl none
  | cons duty _ ih => exact (alike_refl duty).append ih
  | swap left right duties =>
    show (right.append (left.append (total duties))).Alike (left.append (right.append (total duties)))
    rw [← append_assoc, ← append_assoc]
    exact (alike_append_comm right left).append (alike_refl _)
  | trans _ _ hfirst hrest => exact hfirst.trans hrest

end Duty

/-- A part of a build does its duty. -/
def Build.Fulfils (limit : Nat) (step : Build Report) (duty : Duty) : Prop :=
  step.Performs limit duty.report duty.texts duty.journal

def Context.indexDocument (limit : Nat) (context : Context) : SiteDocument :=
  ("data/index.json", (indexView context.registry context.schema.name context.title { limit }).1.toJson)

def Entry.document (limit : Nat) (registry : Registry) (entry : Entry) : SiteDocument :=
  (entry.path, (entryDocument registry entry { limit }).1)

def Context.indexDuty (limit : Nat) (context : Context) : Duty where
  report := { documents := 1 }
  texts := context.registry.indexTexts
  journal := [(context.indexDocument limit).write]

def Entry.duty (limit : Nat) (registry : Registry) (entry : Entry) : Duty where
  report := { documents := 1 }
  texts := entry.texts registry
  journal := [(entry.document limit registry).write]

def SourcePage.duty (limit : Nat) (source : SourcePage) : Duty where
  report := { pages := 1 }
  texts := [source.page.content]
  journal := [(Stage.freshDocument limit source).write]

def PageTree.duty (tree : PageTree) : Duty where
  report := { documents := 1 }
  texts := []
  journal := [SiteDocument.write (Stage.treePath, tree.view.toJson)]

namespace Stage

open Build (Performs Fulfils)

variable {context : Context} {sources : List SourcePage} {tree : PageTree}

theorem performs_writeEntry (entry : Entry) :
    (writeEntry context entry).Performs limit () (entry.texts context.registry)
      [(entry.document limit context.registry).write] :=
  .document (.entryDocument _ entry) (.entryDocument _ entry) _

theorem performs_writePage (source : SourcePage) :
    (writePage source).Performs limit () [source.page.content] [(freshDocument limit source).write] :=
  .document (isDetermined_pageDocument source) ((Asks.render _).bind_pure _) _

theorem fulfils_index : (index.run context).Fulfils limit (context.indexDuty limit) := by
  have h : (index.run context).Performs limit { documents := 1 } (context.registry.indexTexts ++ ([] ++ []))
      ([] ++ ([(context.indexDocument limit).write] ++ [])) :=
    (Performs.render (.indexView _ _ _) (.indexView _ _ _)).bind ((Performs.writeJson _ _).bind (.pure _))
  rw [List.append_nil, List.append_nil] at h
  exact h

theorem fulfils_ofKind (name : String) (kind : Kind) (schedule : Schedule) :
    ((ofKind name kind schedule).run context).Fulfils limit
      (.total ((inOrder schedule.picks (context.registry.declaring kind)).map (Entry.duty limit context.registry))) := by
  have htotal (entries : List Entry) : Duty.total (entries.map (Entry.duty limit context.registry)) =
      ⟨{ documents := entries.length }, entries.flatMap (Entry.texts context.registry),
        entries.flatMap fun entry => [(entry.document limit context.registry).write]⟩ := by
    induction entries with
    | nil => rfl
    | cons entry entries ih =>
      rw [List.map_cons, Duty.total, List.foldr_cons, ← Duty.total, ih]
      simp [Duty.append, Entry.duty, Report.add, Nat.add_comm]
  rw [htotal, (inOrder_perm _ _).length_eq]
  exact (Performs.race performs_writeEntry failsAtFile_writeEntry _ _).bind_pure _

/-- The pages as if they had been found already. -/
def pagesOn (sources : List SourcePage) : Stage where
  name := pages.name
  run context :=
    match PageTree.merge context.title sources context.registry with
    | .error collision => throw (.navigation collision)
    | .ok tree => do
      sources.forM writePage
      Build.writeJson treePath tree.view.toJson
      return { documents := 1, pages := sources.length }

/-- The pages are those that are found when their stage begins. -/
theorem run_pages (context : Context) (start : Workshop) :
    pages.run context start = (pagesOn (context.foundPages start.disk.files)).run context start := rfl

theorem fulfils_pagesOn (htree : PageTree.merge context.title sources context.registry = .ok tree) :
    ((pagesOn sources).run context).Fulfils limit (.total (sources.map (SourcePage.duty limit) ++ [tree.duty])) := by
  have htotal : Duty.total (sources.map (SourcePage.duty limit)) =
      ⟨{ pages := sources.length }, sources.flatMap fun source => [source.page.content],
        sources.flatMap fun source => [(freshDocument limit source).write]⟩ := by
    clear htree
    induction sources with
    | nil => rfl
    | cons source sources ih =>
      rw [List.map_cons, Duty.total, List.foldr_cons, ← Duty.total, ih]
      simp [Duty.append, SourcePage.duty, Report.add, Nat.add_comm]
  have hwrites : Performs limit
      (do sources.forM writePage; Build.writeJson treePath tree.view.toJson;
          return ({ documents := 1, pages := sources.length } : Report)) _ _ _ :=
    (Performs.forM performs_writePage sources).bind ((Performs.writeJson _ _).bind_pure _)
  rw [Duty.total_append, htotal]
  simp only [pagesOn, htree]
  simpa [Build.Fulfils, Duty.append, Duty.total, Duty.none, PageTree.duty, Report.add] using hwrites

/-- Parts of a build that do their duties do them one behind the other. -/
theorem performs_foldlM {parts : List (Build Report)} {duties : List Duty}
    (h : List.Forall₂ (Fulfils limit) parts duties) (given : Report) :
    Performs limit (parts.foldlM (fun report part => do return report.add (← part)) given)
      (given.add (Duty.total duties).report) (Duty.total duties).texts (Duty.total duties).journal := by
  induction h generalizing given with
  | nil => exact .pure given
  | @cons part duty parts duties hpart _ ih =>
    have hreport : given.add (duty.append (.total duties)).report = (given.add duty.report).add (Duty.total duties).report := by
      simp [Duty.append, Report.add, Nat.add_assoc]
    rw [List.foldlM_cons, Duty.total, List.foldr_cons, ← Duty.total, hreport]
    exact (hpart.bind_pure fun report => given.add report).bind (ih _)

end Stage

end SchemaDocs
