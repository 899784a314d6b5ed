import SchemaDocs.Proofs.Resource.Copying
import SchemaDocs.Proofs.Site.Accounts
import SchemaDocs.Proofs.Storage.Listing

/-!
# How threads share the documents

A journal that can be written in one order leaves the same disk in any other, since a file system is known
by what stands at its places. So the pages and the resources find the same files whichever threads have
written the reference, and a build that succeeds does so however the documents are shared.
-/

namespace SchemaDocs

theorem Disk.writeAll_eq_of_perm {start final : Disk} {left right : List Write} {top : List String}
    (hlisted : start.files.root.IsListed) (hleads : start.files.Leads start.output.root top)
    (h : start.writeAll left = .ok final) (hperm : left.Perm right) : start.writeAll right = .ok final := by
  obtain ⟨other, hother, hplaces, houtput⟩ := writeAll_of_perm hleads h hperm
  have hroot : final.files.root = other.files.root :=
    Tree.eq_of_bareAt? (Tree.isKept_isListed.writeAll hlisted h) (Tree.isKept_isListed.writeAll hlisted hother) hplaces
  have hworking : final.files.workingDirectory = other.files.workingDirectory :=
    (alters_of_writeAll h).workingDirectory.trans (alters_of_writeAll hother).workingDirectory.symm
  obtain ⟨⟨root, workingDirectory⟩, output⟩ := final
  obtain ⟨⟨otherRoot, otherDirectory⟩, otherOutput⟩ := other
  obtain rfl : root = otherRoot := hroot
  obtain rfl : workingDirectory = otherDirectory := hworking
  obtain rfl : output = otherOutput := houtput
  exact hother

/-- Where the stages succeed, they do so however threads share the documents of a kind, and leave the same disk. -/
theorem Stage.exists_yields_scheduled {limit : Nat} {context : Context} {start final : Workshop} {report : Report}
    {top : List String} {schedule : Kind → Schedule} (hlisted : start.disk.files.root.IsListed)
    (hrenderer : start.renderer.IsFaithful limit) (hleads : start.disk.files.Leads start.disk.output.root top)
    (h : (runAll context (scheduled schedule)).Yields start report final) (other : Kind → Schedule) :
    ∃ renderer, (runAll context (scheduled other)).Yields start report ⟨final.disk, renderer⟩ := by
  rw [runAll_scheduled] at h ⊢
  obtain ⟨reported, middle, hreference, hrest⟩ := Build.yields_bind_iff.mp h
  obtain ⟨part, ended, hpages, hpure⟩ := Build.yields_bind_iff.mp hrest
  obtain ⟨rfl, rfl⟩ := Build.yields_pure_iff.mp hpure
  rw [Build.Yields, run_pages] at hpages
  obtain ⟨tree, htree⟩ := exists_tree_of_yields_run hpages
  -- the reference leaves the same disk, on which the same pages are found
  obtain ⟨rfl, hwritten, hasked⟩ := (fulfils_reference tree schedule).of_yields hrenderer hreference
  have halike := context.referenceDuty_alike limit tree schedule other
  have hagain := (fulfils_reference tree other).yields hrenderer
    (Disk.writeAll_eq_of_perm hlisted hleads hwritten halike.journal)
  rw [← halike.report] at hagain
  obtain ⟨rfl, hpagesWritten, -⟩ := (fulfils_pagesOn htree).of_yields (hasked ▸ hrenderer.asked _) hpages
  have hpagesAgain : ((pagesOn _).run context).Yields ⟨middle.disk, start.renderer.asked _⟩ _ ⟨final.disk, _⟩ :=
    (fulfils_pagesOn htree).yields (hrenderer.asked (context.referenceDuty limit tree other).texts) hpagesWritten
  exact ⟨_, Build.yields_bind_iff.mpr ⟨_, _, hagain, Build.yields_bind_iff.mpr ⟨_, _, hpagesAgain, rfl⟩⟩⟩

namespace BuildSettings

variable {settings : BuildSettings} {schedule : Kind → Schedule} {provider : Option Provider} {schema : Schema}
  {files final : FileSystem} {result : BuildResult}

/-- A build that succeeds does so however threads share the documents of a kind, and leaves the same files. -/
theorem build_eq_of_scheduled (hlisted : files.root.IsListed)
    (h : settings.build (Stage.scheduled schedule) provider schema files = (.ok result, final)) (other : Kind → Schedule) :
    settings.build (Stage.scheduled other) provider schema files = (.ok result, final) := by
  obtain ⟨registry, manifest, made, workshop, hregistry, hmanifest, hmade, hgenerate, hdirectory, rfl⟩ := build_eq_ok_iff.mp h
  obtain ⟨report, staged, hstages, hgenerate⟩ := Build.yields_bind_iff.mp hgenerate
  obtain ⟨assets, copied, hcopies, hgenerate⟩ := Build.yields_bind_iff.mp hgenerate
  obtain ⟨hresult, rfl⟩ := Build.yields_pure_iff.mp hgenerate
  obtain ⟨_, _, hagain, -, hleads⟩ := exists_leads_of_build h
  obtain rfl := (Prod.mk.inj (hmade.symm.trans hagain)).2
  have hlistedStart : (settings.workshop schema made).disk.files.root.IsListed := by
    have hkept := Tree.isKept_isListed.createDirectories hlisted (settings.siteDirectory schema)
    rw [makeOutput_eq_ok_iff.mp hmade] at hkept
    exact hkept
  obtain ⟨renderer, hstagesOther⟩ := Stage.exists_yields_scheduled hlistedStart
    (Markdown.Renderer.isFaithful_new settings.markdownLimit) hleads hstages other
  obtain ⟨hcount, -, hjournal⟩ := copyResources_eq_ok_iff.mp hcopies
  have hcopiesOther : (copyResources (settings.resources provider) manifest).Yields ⟨staged.disk, renderer⟩ assets
      ⟨workshop.disk, renderer⟩ := copyResources_eq_ok_iff.mpr ⟨hcount, rfl, hjournal⟩
  have hgenerateOther : (generate (settings.context schema registry) (Stage.scheduled other) (settings.resources provider)
      manifest).Yields (settings.workshop schema made) (result.report, result.assets) ⟨workshop.disk, renderer⟩ :=
    Build.yields_bind_iff.mpr ⟨report, _, hstagesOther, Build.yields_bind_iff.mpr
      ⟨assets, _, hcopiesOther, Build.yields_pure_iff.mpr ⟨hresult, rfl⟩⟩⟩
  exact build_eq_ok_iff.mpr
    ⟨registry, manifest, made, _, hregistry, hmanifest, hmade, hgenerateOther, hdirectory, rfl⟩

end BuildSettings

end SchemaDocs
