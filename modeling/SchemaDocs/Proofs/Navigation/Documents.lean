import SchemaDocs.Proofs.Navigation.Canonical

/-!
# Where pages are shown

The document of a page is shown by the node of the page, or by that of the directory which it describes. So a
page that is not listed and describes no directory is shown nowhere, and every other page by one node, if no two
pages have one document. A page that describes its directory is shown even if it is not to be in the navigation.
-/

namespace SchemaDocs

variable {title : String} {sources : List SourcePage} {source : SourcePage}

namespace PageTree

variable {tree : PageTree} {index left right : Nat} {registry : Registry}

/-- A node shows a page: it is that of the page, or of the directory which the page describes. -/
inductive ShowsPage (tree : PageTree) (source : SourcePage) (index : Nat) : Prop where
  | folder (hindex : source.isIndex) (hway : tree.Reaches source.directories index)
  | page {way : List String} (hlisted : source.isListed) (hholds : tree.Holds index ⟨source, way⟩)

private theorem ShowsPage.needsFolders (h : tree.ShowsPage source index) : source.needsFolders := by
  rw [SourcePage.needsFolders, Bool.or_eq_true]
  cases h with
  | folder hindex => exact .inl hindex
  | page hlisted =>
    rw [SourcePage.isListed, Bool.and_eq_true] at hlisted
    exact .inr hlisted.2

private theorem of_mem_finalLayout {stand : Stand} (h : stand ∈ finalLayout sources) :
    stand.page ∈ sources ∧ stand.page.isListed := by
  rw [finalLayout, standing, List.map_nil, List.append_nil, List.mem_map] at h
  obtain ⟨page, hpage, rfl⟩ := h
  exact List.mem_filter.mp hpage

namespace Settled

private theorem document_eq_iff (h : tree.Settled title sources)
    (hdistinct : (sources.map SourcePage.documentPath).Nodup)
    (hsource : source ∈ sources) (hindex : index < tree.size) :
    (tree.node index).document = some source.documentPath ↔ tree.ShowsPage source index := by
  have hsame {other : SourcePage} (hother : other ∈ sources) (hpath : other.documentPath = source.documentPath) :
      other = source := List.inj_on_of_nodup_map hdistinct hother hsource hpath
  constructor
  · intro hdocument
    rcases h.arranged.reaches_or_holds hindex with ⟨way, hway⟩ | ⟨stand, hstand, hholds⟩
    · rw [h.shows way index hway, document_folderShown, Option.map_eq_some_iff] at hdocument
      obtain ⟨other, hother, hpath⟩ := hdocument
      obtain ⟨hmem, rfl⟩ := of_describing?_eq_some hother
      obtain ⟨hmem, hdescribes⟩ := List.mem_filter.mp hmem
      obtain rfl := hsame hmem hpath
      exact .folder hdescribes hway
    · rw [hholds.entry] at hdocument
      obtain ⟨hmem, hlisted⟩ := of_mem_finalLayout hstand
      obtain ⟨page, way⟩ := stand
      obtain rfl := hsame hmem (Option.some.inj hdocument)
      exact .page hlisted hholds
  · intro hshows
    cases hshows with
    | folder hdescribes hway =>
      have hdescribing := (describing?_eq_some_iff h.described).mpr ⟨List.mem_filter.mpr ⟨hsource, hdescribes⟩, rfl⟩
      rw [h.shows _ index hway, document_folderShown, hdescribing, Option.map_some]
    | page _ hholds =>
      rw [hholds.entry]
      rfl

private theorem exists_showsPage (h : tree.Settled title sources) (hsource : source ∈ sources)
    (hneeds : source.needsFolders) :
    ∃ index < tree.size, tree.ShowsPage source index := by
  by_cases hdescribes : source.isIndex
  · have hfolder : source.directories = [] ∨ HasFolder sources source.directories :=
      or_iff_not_imp_left.mpr fun hne => ⟨hne, source, hsource, hneeds, List.prefix_refl _⟩
    obtain ⟨index, hway⟩ := (h.arranged.folders source.directories).mpr hfolder
    exact ⟨index, hway.lt_size h.arranged.linked, .folder hdescribes hway⟩
  · have hlisted : source.isListed := by
      rw [SourcePage.needsFolders, Bool.or_eq_true, or_iff_right hdescribes] at hneeds
      rw [SourcePage.isListed, Bool.and_eq_true, Bool.not_eq_true']
      exact ⟨Bool.not_eq_true _ ▸ hdescribes, hneeds⟩
    have hstand : ⟨source, source.home sources⟩ ∈ finalLayout sources := by
      rw [finalLayout, standing, List.map_nil, List.append_nil]
      exact List.mem_map_of_mem (List.mem_filter.mpr ⟨hsource, hlisted⟩)
    obtain ⟨index, hindex, hholds⟩ := (exists_of_mem_forall₂ h.arranged.pages).1 _ hstand
    exact ⟨index, (mem_numbersOf_iff.mp hindex).1, .page hlisted hholds⟩

private theorem showsPage_unique (h : tree.Settled title sources) (hleft : tree.ShowsPage source left)
    (hright : tree.ShowsPage source right) : left = right := by
  have hnot (hdescribes : source.isIndex) (hlisted : source.isListed) : False := by
    rw [SourcePage.isListed, hdescribes] at hlisted
    cases hlisted
  cases hleft with
  | folder hdescribes hway =>
    cases hright with
    | folder _ hother => exact hway.unique h.arranged.linked h.arranged.differ hother
    | page hlisted _ => exact (hnot hdescribes hlisted).elim
  | page hlisted hholds =>
    cases hright with
    | folder hdescribes _ => exact (hnot hdescribes hlisted).elim
    | page _ hother =>
      obtain ⟨_, hparent, -⟩ := hholds.below
      obtain ⟨_, hotherParent, -⟩ := hother.below
      refine h.ids left (lt_size_of_parent hparent) right (lt_size_of_parent hotherParent)
        (h.arranged.ne_root_of_page (congrArg NavEntry.kind hholds.entry))
        (h.arranged.ne_root_of_page (congrArg NavEntry.kind hother.entry)) ?_ ?_
      · rw [hholds.entry, hother.entry]
      · rw [hholds.entry, hother.entry]

private theorem countP_document (h : tree.Settled title sources)
    (hdistinct : (sources.map SourcePage.documentPath).Nodup)
    (hsource : source ∈ sources) :
    tree.view.entries.countP (fun entry => entry.document = some source.documentPath) =
      if source.needsFolders then 1 else 0 := by
  obtain ⟨order, hperm, hentries⟩ := h.arranged.linked.entries_view
  rw [hentries, List.countP_map, hperm.countP_eq]
  split
  · rename_i hneeds
    obtain ⟨index, hindex, hshows⟩ := h.exists_showsPage hsource hneeds
    refine countP_eq_one_of_unique List.nodup_range (List.mem_range.mpr hindex) fun other hother => ?_
    rw [Function.comp_apply, decide_eq_true_eq, h.document_eq_iff hdistinct hsource (List.mem_range.mp hother)]
    exact ⟨fun hother => h.showsPage_unique hother hshows, fun heq => heq ▸ hshows⟩
  · rename_i hneeds
    rw [List.countP_eq_zero]
    intro other hother hdocument
    rw [Function.comp_apply, decide_eq_true_eq, h.document_eq_iff hdistinct hsource (List.mem_range.mp hother)] at hdocument
    exact hneeds hdocument.needsFolders

end Settled

/-! ### The merged tree -/

private theorem document_of_referenceView {entry : NavEntry} (h : entry ∈ (referenceView registry).entries) :
    entry.document = none ∨ ∃ declared ∈ registry.entries, entry.document = some declared.path := by
  rcases cases_of_referenceView h with rfl | ⟨position, rfl⟩ | ⟨declared, hdeclared, kind, rfl⟩
  · exact .inl rfl
  · exact .inl rfl
  · exact .inr ⟨declared, hdeclared, rfl⟩

/-- Readers find each page that is to be shown once in a merged tree, and no other page. -/
theorem countP_view_of_merge (hsources : ∀ source ∈ sources, source.IsNamed) (hnamed : WellNamed registry.entries)
    (hdistinct : (sources.map SourcePage.documentPath).Nodup) (hok : merge title sources registry = .ok tree)
    (hsource : source ∈ sources) (hapart : ∀ declared ∈ registry.entries, declared.path ≠ source.documentPath) :
    tree.view.entries.countP (fun entry => entry.document = some source.documentPath) =
      if source.needsFolders then 1 else 0 := by
  obtain ⟨pages, hpages, hview, -⟩ := view_of_merge hsources hnamed hok
  obtain ⟨settled, hsettled, hsettledView⟩ := settled_of_arrange hsources hpages
  have hreference : (referenceView registry).entries.countP (fun entry => entry.document = some source.documentPath) = 0 := by
    rw [List.countP_eq_zero]
    intro entry hentry hdocument
    rw [decide_eq_true_eq] at hdocument
    rcases document_of_referenceView hentry with hnone | ⟨declared, hdeclared, hpath⟩
    · rw [hnone] at hdocument
      cases hdocument
    · rw [hpath] at hdocument
      exact hapart declared hdeclared (Option.some.inj hdocument)
  rw [hview, TreeView.entries_hang, List.countP_append, (TreeView.entries_sorted_perm _).countP_eq, hreference, Nat.add_zero,
    hsettledView, (TreeView.entries_sorted_perm _).countP_eq, hsettled.countP_document hdistinct hsource]

end PageTree

end SchemaDocs
