import SchemaDocs.Proofs.Navigation.Documents
import SchemaDocs.Proofs.Site.Blocking
import SchemaDocs.Proofs.Site.Contents

/-!
# Listed and unlisted pages

A page that declines to be in the navigation is left out of the tree, unless it describes a directory; all other
pages are in it once. The documents of the pages are written whether they are in the tree or not: nothing keeps
the stage of the pages from it but a document in the way of another one, a path that is taken, or a name that is
too long.
-/

namespace SchemaDocs

open FileSystem (WithinLimits)

variable {context : Context} {registry : Registry} {sources : List SourcePage}

/-- Where there are files of the reference at most, all files of pages can be written that are apart and in
nobody's way. -/
theorem Disk.HoldsOnly.not_halts {start final : Disk} {top held : List String} (h : start.HoldsOnly top held)
    (hnamed : WellNamed registry.entries) (hsources : ∀ source ∈ sources, source.IsFound)
    (hdistinct : (sources.map SourcePage.documentPath).Nodup) (hwritten : start.output.written ⊆ registry.referencePaths)
    (hlimits : ∀ path ∈ pagePaths sources, WithinLimits start.output.root (Text.pieces '/' path))
    (hfree : ∀ left right, ¬ InTheWay registry sources left right) (cause : OutputError) :
    ¬ start.Halts (pagePaths sources) cause final := by
  have hapart := pathsApart hnamed hsources
  intro hhalts
  cases cause with
  | notRelative path =>
    obtain ⟨hplan, hnot⟩ := hhalts.not_isOutputPath
    exact hnot (hapart.isOutputPath_of_pagePaths hplan)
  | duplicate path =>
    obtain ⟨front, rest, hplan, hearlier⟩ := hhalts.exists_earlier
    rcases List.mem_append.mp hearlier with hfront | hclaimed
    · obtain ⟨left, right, hpair, hleft, hright⟩ := hapart.exists_twins hplan hfront
      exact List.pairwise_iff_forall_sublist.mp (List.pairwise_map.mp hdistinct) hpair (hleft.trans hright.symm)
    · refine hapart.not_mem_referencePaths ?_ (hwritten hclaimed)
      rw [hplan]
      exact List.mem_append_right _ List.mem_cons_self
  | failed reason =>
    obtain ⟨left, hleft, right, hright, hblocks⟩ := h.exists_blocks hlimits hhalts
    have hplan : pagePaths sources ++ held ⊆ sitePlan registry sources :=
      List.append_subset.mpr ⟨List.subset_append_right _ _, fun path hpath =>
        List.mem_append_left _ (hwritten (h.claimed path hpath))⟩
    exact hfree left right ((blocks_iff_inTheWay hnamed hsources (hplan hleft) (hplan hright)).mp hblocks)

namespace Stage

open Build (Yields)

variable {start : Workshop} {tree : PageTree}

private theorem exists_yields_pages
    (htree : PageTree.merge context.title (context.foundPages start.disk.files) context.registry = .ok tree)
    (hhalts : ∀ cause final, ¬ start.disk.Halts (pagePaths (context.foundPages start.disk.files)) cause final) :
    ∃ final, (pages.run context).Yields start
      { documents := 1, pages := (context.foundPages start.disk.files).length } final := by
  rcases hrun : pages.run context start with ⟨outcome, final⟩
  cases outcome with
  | ok report =>
    obtain ⟨rfl, -⟩ := yields_pages (show (pages.run context).Yields start report final from hrun)
    exact ⟨final, hrun⟩
  | error error =>
    rcases fails_pages (show (pages.run context).Fails start error final from hrun) with
      ⟨collision, -, -, hcollision⟩ | ⟨cause, -, hhalt⟩
    · rw [htree] at hcollision
      cases hcollision
    · exact absurd hhalt (hhalts cause _)

/-- Of the pages that are found, each that describes its directory or does not decline to be in the navigation is
shown by one node of the tree, and no node shows any other. The documents of all of them, shown or not, are there
whenever the stage of the pages succeeds; and it does so where the output directory holds files of the reference at
most, no document is in the way of another one and no name is too long. -/
theorem shown_once_and_written (hregistry : Registry.build context.schema = .ok context.registry)
    (hfiles : start.disk.files.root.IsNamed)
    (hdistinct : ((context.foundPages start.disk.files).map SourcePage.documentPath).Nodup)
    (htree : PageTree.merge context.title (context.foundPages start.disk.files) context.registry = .ok tree) :
    (∀ source ∈ context.foundPages start.disk.files,
      tree.view.entries.countP (fun entry => entry.document = some source.documentPath) =
        if source.isIndex || source.page.inNav then 1 else 0) ∧
      (∀ limit report final, start.renderer.IsFaithful limit → (pages.run context).Yields start report final →
        ∀ source ∈ context.foundPages start.disk.files, ∃ members,
          final.disk.files.read (final.disk.output.location source.documentPath) = .ok (Disk.jsonBytes (.object members)) ∧
          members.lookup "content" = some (.string (Markdown.Rendered.ofText limit source.page.content).html) ∧
          members.lookup "toc" = some (.array (source.page.toc.map tocJson))) ∧
      ∀ top held, start.disk.HoldsOnly top held → start.disk.output.written ⊆ context.registry.referencePaths →
        (∀ path ∈ pagePaths (context.foundPages start.disk.files),
          WithinLimits start.disk.output.root (Text.pieces '/' path)) →
        (∀ left right, ¬ InTheWay context.registry (context.foundPages start.disk.files) left right) →
        ∃ final, (pages.run context).Yields start
          { documents := 1, pages := (context.foundPages start.disk.files).length } final := by
  have hnamed := wellNamed_of_build hregistry
  have hsources : ∀ source ∈ context.foundPages start.disk.files, source.IsFound := fun _ =>
    Context.isFound_of_foundPages hfiles
  have hapart := pathsApart hnamed hsources
  refine ⟨fun source hsource => ?_, fun limit report final hrenderer hyields source hsource =>
    exists_document_of_pages hrenderer hyields hsource, fun top held honly hwritten hlimits hfree => ?_⟩
  · exact PageTree.countP_view_of_merge (fun other hother => (hsources other hother).toIsNamed) hnamed hdistinct htree hsource
      fun declared hdeclared => hapart.reference_ne_page declared hdeclared source hsource
  · exact exists_yields_pages htree fun cause _ =>
      honly.not_halts hnamed hsources hdistinct hwritten hlimits hfree cause

end Stage

namespace Sample

/-- Three pages of which two decline to be in the navigation; one of these describes the directory. -/
def unlistedFiles : FileSystem where
  root := .directory [
    ("o", .directory []),
    ("p", .directory [
      ("draft.md", .file "---\nnav: false\n---\n".toUTF8), ("index.md", .file "---\nnav: false\n---\n".toUTF8),
      ("intro.md", .file "".toUTF8)])]

def unlistedWorkshop : Workshop where
  disk := ⟨unlistedFiles, { root := "o" }⟩
  renderer := { limit := 100 }

def draftPage : SourcePage := ⟨"draft", ["draft"], false, ⟨some { nav := false }, "", []⟩⟩

def describingPage : SourcePage := ⟨"", ["index"], true, ⟨some { nav := false }, "", []⟩⟩

def introPage : SourcePage := ⟨"intro", ["intro"], false, ⟨none, "", []⟩⟩

private theorem unlistedFiles_pages :
    (nestedContext { output := "o" } (some "p")).foundPages unlistedFiles = [draftPage, describingPage, introPage] := by
  decide +kernel

private theorem unlistedFiles_named : unlistedFiles.root.IsNamed := by
  have hname (name : String) (h : name ≠ "" ∧ '/' ∉ name.toList) : IsEntryName name := ⟨h.1, h.2⟩
  exact ⟨hname _ (by decide), trivial, hname _ (by decide), ⟨hname _ (by decide), trivial, hname _ (by decide), trivial,
    hname _ (by decide), trivial, trivial⟩, trivial⟩

private theorem unlistedWorkshop_vacant : unlistedWorkshop.disk.IsVacant := ⟨["o"], ⟨rfl, rfl⟩, rfl⟩

private theorem unlistedPages_free {left right : String} :
    ¬ InTheWay {} [draftPage, describingPage, introPage] left right := by
  intro h
  cases h with
  | file houter => cases houter
  | page _ hinner h =>
    have hslash : ∀ page ∈ [draftPage, describingPage, introPage], '/' ∉ (String.intercalate "/" page.segments).toList := by
      decide
    exact Path.not_blocks_of_not_mem (hslash _ hinner) h

private theorem unlistedPlan_withinLimits {path : String}
    (h : path ∈ pagePaths [draftPage, describingPage, introPage]) :
    WithinLimits "o" (Text.pieces '/' path) := by
  have hlimits : ∀ path ∈ pagePaths [draftPage, describingPage, introPage], WithinLimits "o" (Text.pieces '/' path) := by
    decide +kernel
  exact hlimits path h

private theorem unlistedPages_merge :
    (PageTree.merge "Docs" [draftPage, describingPage, introPage] {}).toOption.isSome := by
  decide +kernel

end Sample

theorem Stage.shown_once_and_written_unlisted :
    ∃ tree final, PageTree.merge "Docs" [Sample.draftPage, Sample.describingPage, Sample.introPage] {} = .ok tree ∧
      (pages.run (Sample.nestedContext { output := "o" } (some "p"))).Yields Sample.unlistedWorkshop
        { documents := 1, pages := 3 } final ∧
      tree.view.entries.countP (fun entry => entry.document = some "pages/draft.json") = 0 ∧
      tree.view.entries.countP (fun entry => entry.document = some "pages/index.json") = 1 ∧
      tree.view.entries.countP (fun entry => entry.document = some "pages/intro.json") = 1 ∧
      ∃ members, final.disk.files.read (final.disk.output.location "pages/draft.json") =
        .ok (Disk.jsonBytes (.object members)) := by
  obtain ⟨tree, hmerged⟩ := Option.isSome_iff_exists.mp Sample.unlistedPages_merge
  have hfound : (Sample.nestedContext { output := "o" } (some "p")).foundPages Sample.unlistedWorkshop.disk.files =
      [Sample.draftPage, Sample.describingPage, Sample.introPage] := Sample.unlistedFiles_pages
  have hregistry : Registry.build (Sample.nestedContext { output := "o" } (some "p")).schema =
      .ok (Sample.nestedContext { output := "o" } (some "p")).registry := rfl
  have hnamed : Sample.unlistedWorkshop.disk.files.root.IsNamed := Sample.unlistedFiles_named
  have hmain := @shown_once_and_written _ Sample.unlistedWorkshop tree hregistry hnamed
  rw [hfound] at hmain
  obtain ⟨hshown, hwritten, hruns⟩ := hmain (by decide) (eq_ok_of_toOption hmerged)
  obtain ⟨top, honly⟩ := Sample.unlistedWorkshop_vacant.exists_holdsOnly
  obtain ⟨final, hyields⟩ := hruns top [] honly (List.nil_subset _) (fun _ => Sample.unlistedPlan_withinLimits)
    fun _ _ => Sample.unlistedPages_free
  obtain ⟨members, hread, -⟩ :=
    hwritten 100 _ final (Markdown.Renderer.isFaithful_new 100) hyields Sample.draftPage List.mem_cons_self
  exact ⟨tree, final, eq_ok_of_toOption hmerged, hyields, hshown Sample.draftPage (by decide),
    hshown Sample.describingPage (by decide), hshown Sample.introPage (by decide), members, hread⟩

/-- A page that declines to be in the navigation, and is shown by the root of the tree. -/
theorem Stage.unlisted_shown :
    Sample.describingPage ∈ (Sample.nestedContext { output := "o" } (some "p")).foundPages Sample.unlistedFiles ∧
      Sample.describingPage.page.inNav = false ∧
      ([Sample.draftPage, Sample.describingPage, Sample.introPage].map SourcePage.documentPath).Nodup ∧
      ∃ tree, PageTree.merge "Docs" [Sample.draftPage, Sample.describingPage, Sample.introPage] {} = .ok tree ∧
        ∃ entry ∈ tree.view.entries, entry.document = some Sample.describingPage.documentPath := by
  have hshown : ((PageTree.merge "Docs" [Sample.draftPage, Sample.describingPage, Sample.introPage] {}).toOption.map
      fun tree => tree.view.entries.any fun entry => entry.document = some Sample.describingPage.documentPath) = some true := by
    decide +kernel
  obtain ⟨tree, hmerged, hany⟩ := Option.map_eq_some_iff.mp hshown
  obtain ⟨entry, hentry, hdocument⟩ := List.any_eq_true.mp hany
  refine ⟨?_, rfl, by decide, tree, eq_ok_of_toOption hmerged, entry, hentry, of_decide_eq_true hdocument⟩
  rw [Sample.unlistedFiles_pages]
  exact List.mem_cons_of_mem _ List.mem_cons_self

end SchemaDocs
