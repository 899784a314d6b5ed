import SchemaDocs.Proofs.Reference.Rendered
import SchemaDocs.Proofs.Site.Journal
import SchemaDocs.Site.Build

/-!
# Steps of a build

A step of a build that succeeds has written some files, which its journal lists. The journal of a
sequence is made of those of its steps.
-/

namespace SchemaDocs

open Json (Value)
open Markdown (Renderer)

/-- A file that is written, and what is written to it. -/
abbrev Write := String × ByteArray

abbrev SiteDocument := String × Value

def SiteDocument.write (document : SiteDocument) : Write := (document.1, Disk.jsonBytes document.2)

namespace Build

variable {α β : Type} {start middle final : Workshop} {value : α} {result : β} {error : BuildError}

def Yields (step : Build α) (start : Workshop) (value : α) (final : Workshop) : Prop :=
  step start = (.ok value, final)

theorem yields_pure_iff {given : α} :
    (pure given : Build α).Yields start value final ↔ value = given ∧ final = start := by
  show ((Except.ok given : Except BuildError α), start) = (.ok value, final) ↔ _
  rw [Prod.mk.injEq, Except.ok.injEq, eq_comm, @eq_comm _ start]

theorem not_yields_throw {error : BuildError} : ¬ (throw error : Build α).Yields start value final := by
  intro h
  cases (Prod.mk.inj h).1

theorem run_bind (first : Build α) (next : α → Build β) (start : Workshop) :
    (first >>= next) start =
      match first start with
      | (.ok value, middle) => next value middle
      | (.error error, middle) => (.error error, middle) := by
  rcases hfirst : first start with ⟨outcome, middle⟩
  simp only [bind, ExceptT.bind, ExceptT.mk, StateT.bind, hfirst]
  cases outcome <;> rfl

theorem yields_bind_iff {first : Build α} {next : α → Build β} :
    (first >>= next).Yields start result final ↔
      ∃ value middle, first.Yields start value middle ∧ (next value).Yields middle result final := by
  rw [Yields, run_bind]
  constructor
  · intro h
    split at h
    · rename_i value middle hfirst
      exact ⟨value, middle, hfirst, h⟩
    · cases h
  · rintro ⟨value, middle, hfirst, h⟩
    rw [hfirst]
    exact h

theorem isRendered_of_yields {rendering : StateM Renderer α} (h : (render rendering).Yields start value final) :
    IsRendered rendering value ∧ final.disk = start.disk := by
  obtain ⟨hvalue, hfinal⟩ := Prod.mk.inj h
  refine ⟨⟨start.renderer, (rendering start.renderer).2, ?_⟩, ?_⟩
  · rw [← Except.ok.inj hvalue]
    rfl
  · rw [← hfinal]

theorem writeAll_of_yields {path : String} {content : ByteArray}
    (h : (writeBytes path content).Yields start () final) :
    start.disk.writeAll [(path, content)] = .ok final.disk := by
  rw [Yields, writeBytes] at h
  refine Disk.writeAll_cons_eq_ok_iff.mpr ⟨final.disk, ?_, rfl⟩
  generalize start.disk.writeBytes path content = written at h ⊢
  obtain ⟨outcome, disk⟩ := written
  obtain ⟨hvalue, hfinal⟩ := Prod.mk.inj h
  rw [← hfinal]
  cases outcome with
  | error error => cases hvalue
  | ok _ => rfl

theorem writeJson_of_yields {path : String} {rendering : StateM Renderer Value}
    (h : (render rendering >>= writeJson path).Yields start () final) :
    ∃ value, IsRendered rendering value ∧
      start.disk.writeAll [SiteDocument.write (path, value)] = .ok final.disk := by
  obtain ⟨value, middle, hvalue, hwrite⟩ := yields_bind_iff.mp h
  obtain ⟨hrendered, hdisk⟩ := isRendered_of_yields hvalue
  rw [← hdisk]
  exact ⟨value, hrendered, writeAll_of_yields hwrite⟩

/-- Where a step makes one file for each item and keeps what it starts from, the steps together make these
files in order. -/
theorem writeAll_of_forM_keeping {Keeps : Workshop → Prop} {items : List α} {step : α → Build Unit}
    {IsMade : α → β → Prop} {write : β → Write}
    (hstep : ∀ item ∈ items, ∀ start final, Keeps start → (step item).Yields start () final →
      Keeps final ∧ ∃ made, IsMade item made ∧ start.disk.writeAll [write made] = .ok final.disk)
    (hstart : Keeps start) (h : (items.forM step).Yields start () final) :
    ∃ made, List.Forall₂ IsMade items made ∧ start.disk.writeAll (made.map write) = .ok final.disk := by
  induction items generalizing start with
  | nil =>
    obtain ⟨-, rfl⟩ := yields_pure_iff.mp h
    exact ⟨[], .nil, rfl⟩
  | cons item items ih =>
    obtain ⟨_, middle, hfirst, hrest⟩ := yields_bind_iff.mp h
    obtain ⟨hmiddle, first, hmade, hdisk⟩ := hstep item List.mem_cons_self start middle hstart hfirst
    obtain ⟨rest, hrest, hdisks⟩ := ih (fun item hitem => hstep item (List.mem_cons_of_mem _ hitem)) hmiddle hrest
    exact ⟨first :: rest, .cons hmade hrest, Disk.writeAll_append_eq_ok_iff.mpr ⟨middle.disk, hdisk, hdisks⟩⟩

theorem writeAll_of_forM {items : List α} {step : α → Build Unit} {IsMade : α → β → Prop} {write : β → Write}
    (hstep : ∀ item ∈ items, ∀ start final, (step item).Yields start () final →
      ∃ made, IsMade item made ∧ start.disk.writeAll [write made] = .ok final.disk)
    (h : (items.forM step).Yields start () final) :
    ∃ made, List.Forall₂ IsMade items made ∧ start.disk.writeAll (made.map write) = .ok final.disk :=
  writeAll_of_forM_keeping (fun item hitem start final _ hmade => ⟨trivial, hstep item hitem start final hmade⟩) trivial h

/-! ### Failures -/

def Fails (step : Build α) (start : Workshop) (error : BuildError) (final : Workshop) : Prop :=
  step start = (.error error, final)

theorem fails_bind_iff {first : Build α} {next : α → Build β} :
    (first >>= next).Fails start error final ↔
      first.Fails start error final ∨ ∃ value middle, first.Yields start value middle ∧ (next value).Fails middle error final := by
  rw [Fails, run_bind]
  constructor
  · intro h
    split at h
    · rename_i value middle hfirst
      exact .inr ⟨value, middle, hfirst, h⟩
    · rename_i cause middle hfirst
      obtain ⟨hcause, rfl⟩ := Prod.mk.inj h
      obtain rfl := Except.error.inj hcause
      exact .inl hfirst
  · rintro (hfirst | ⟨value, middle, hfirst, h⟩)
    · rw [hfirst]
    · rw [hfirst]
      exact h

theorem not_fails_pure : ¬ (pure value : Build α).Fails start error final := by
  intro h
  cases (Prod.mk.inj h).1

/-- Steps one behind the other fail at the first of them that does. -/
theorem exists_of_forM_fails {items : List α} {step : α → Build Unit} (h : (items.forM step).Fails start error final) :
    ∃ before item after middle, items = before ++ item :: after ∧ (before.forM step).Yields start () middle ∧
      (step item).Fails middle error final := by
  induction items generalizing start with
  | nil => exact absurd h not_fails_pure
  | cons item items ih =>
    rcases fails_bind_iff.mp h with h | ⟨_, middle, hitem, h⟩
    · exact ⟨[], item, items, start, rfl, rfl, h⟩
    · obtain ⟨before, other, after, later, rfl, hbefore, hother⟩ := ih h
      exact ⟨item :: before, other, after, later, rfl, yields_bind_iff.mpr ⟨(), middle, hitem, hbefore⟩, hother⟩

theorem fails_writeBytes {path : String} {content : ByteArray} (h : (writeBytes path content).Fails start error final) :
    ∃ cause, error = .output cause ∧ start.disk.writeBytes path content = (.error cause, final.disk) := by
  rw [Fails, writeBytes] at h
  rcases hwrite : start.disk.writeBytes path content with ⟨outcome, disk⟩
  rw [hwrite] at h
  obtain ⟨herror, rfl⟩ := Prod.mk.inj h
  cases outcome with
  | ok _ => cases herror
  | error cause => exact ⟨cause, (Except.error.inj herror).symm, rfl⟩

/-! ### What steps keep -/

/-- What holds before a step also holds behind it, however it ends. -/
def Keeps (P : Workshop → Prop) (step : Build α) : Prop := ∀ start, P start → P (step start).2

namespace Keeps

variable {P : Workshop → Prop}

theorem pure (value : α) : Keeps P (Pure.pure value) := fun _ h => h

theorem throw (error : BuildError) : Keeps P (throw error : Build α) := fun _ h => h

theorem bind {first : Build α} {next : α → Build β} (hfirst : first.Keeps P) (hnext : ∀ value, (next value).Keeps P) :
    (first >>= next).Keeps P := by
  intro start h
  have hmiddle := hfirst start h
  rw [run_bind]
  rcases hrun : first start with ⟨outcome, middle⟩
  rw [hrun] at hmiddle
  cases outcome with
  | ok value => exact hnext value middle hmiddle
  | error error => exact hmiddle

theorem forM {step : α → Build Unit} (hstep : ∀ item, (step item).Keeps P) (items : List α) :
    (items.forM step).Keeps P := by
  induction items with
  | nil => exact pure ()
  | cons item items ih => exact (hstep item).bind fun _ => ih

end Keeps

end Build

end SchemaDocs
