import SchemaDocs.Proofs.Navigation.Folders
import SchemaDocs.Proofs.Navigation.Grafting

/-!
# What the merged tree shows

A node that shows a document shows that of its own page or entry. Pages are placed while the
identity of a folder still says where it lies, so that a page which describes its directory meets
the folder with its own identity. Afterwards the nodes that are there show what they showed, and the
entries of the reference join them.
-/

namespace SchemaDocs

/-- The document that an entry of the tree shows, if it shows one, is that of the page or
declaration with its identity. -/
def NavEntry.Shows (sources : List SourcePage) (registry : Registry) (entry : NavEntry) : Prop :=
  ∀ path, entry.document = some path →
    (entry.origin = .page ∧ ∃ source ∈ sources, source.id = entry.id ∧ path = source.documentPath) ∨
      (entry.origin = .reference ∧ ∃ declared ∈ registry.entries, entry.title = declared.qualifiedName ∧
        entry.id = "reference/" ++ declared.kind.tag ++ "/" ++ declared.qualifiedName ∧ path = declared.path)

namespace PageTree

variable {title : String} {sources : List SourcePage} {registry : Registry} {tree next : PageTree} {index parent : Nat}
  {entry : NavEntry}

private theorem Arranged.shows_entry (h : tree.Arranged (HasFolder sources) (directoryLayout sources))
    (hshows : tree.ShowsFolders title sources) (hsources : ∀ source ∈ sources, source.IsInPlace) (index : Nat) :
    ((tree.node index).toNavEntry).Shows sources registry := by
  intro path hpath
  have hindex : index < tree.size := by
    by_contra hsize
    rw [node_of_size_le (Nat.le_of_not_lt hsize)] at hpath
    cases hpath
  refine .inl ⟨h.origin_eq hindex, ?_⟩
  rcases h.reaches_or_holds hindex with ⟨way, hway⟩ | ⟨stand, hstand, hholds⟩
  · rw [hshows way index hway, document_folderShown, Option.map_eq_some_iff] at hpath
    obtain ⟨source, hsource, rfl⟩ := hpath
    obtain ⟨hmem, hdirectories⟩ := of_describing?_eq_some hsource
    obtain ⟨hmem, hisIndex⟩ := List.mem_filter.mp hmem
    exact ⟨source, hmem, by rw [h.ids way index hway, ← hdirectories, hsources source hmem hisIndex], rfl⟩
  · obtain ⟨source, hsource, rfl⟩ := List.mem_map.mp hstand
    rw [hholds.entry] at hpath ⊢
    exact ⟨source, (List.mem_filter.mp hsource).1, rfl, (Option.some.inj hpath).symm⟩

/-! ### Behind the placing -/

/-- What holds of a tree until it is done. -/
structure Merged (sources : List SourcePage) (registry : Registry) (tree : PageTree) : Prop where
  linked : tree.Linked
  shows : ∀ index, ((tree.node index).toNavEntry).Shows sources registry

namespace Merged

private theorem of_adds (h : tree.Merged sources registry) (hparent : parent < tree.size)
    (hadds : tree.Adds next parent entry)
    (hshows : entry.Shows sources registry) : next.Merged sources registry where
  linked := h.linked.of_adds hparent hadds
  shows index := by
    rw [hadds.entries]
    split
    · exact hshows
    · exact h.shows index

private theorem addReference (h : tree.Merged sources registry) (hok : tree.addReference registry = .ok next) :
    next.Merged sources registry := by
  refine addReference_keeps (fun hstate hparent hadds hentry => hstate.of_adds hparent hadds ?_) h h.linked.nonempty hok
  intro path hpath
  cases hentry with
  | root => cases hpath
  | group position => cases hpath
  | @leaf kind declared hdeclared =>
    obtain ⟨hmem, hkind⟩ := List.mem_filter.mp hdeclared
    refine .inr ⟨rfl, declared, hmem, rfl, ?_, (Option.some.inj hpath).symm⟩
    rw [of_decide_eq_true hkind]
    rfl

private theorem sort (h : tree.Merged sources registry) : tree.sort.Merged sources registry where
  linked := h.linked.sort
  shows index := by
    rw [node_sort]
    exact h.shows index

end Merged

/-- Every node of the merged tree shows the document of its own page or entry. -/
theorem merged_of_merge (hsources : ∀ source ∈ sources, source.IsInPlace)
    (hok : merge title sources registry = .ok tree) :
    tree.Merged sources registry := by
  obtain ⟨placed, rehomed, merged, hplaced, hrehomed, hmerged, rfl⟩ := merge_eq_ok_iff.mp hok
  obtain ⟨hdirectories, hindex⟩ := arranged_of_placeAll hplaced
  rw [map_id_indexPages hsources] at hindex
  have hshows : placed.ShowsFolders title sources :=
    (ShowsFolders.new title).placeAll (arranged_new title) (hindex.of_map _) hplaced
  obtain ⟨hlinked, hentries⟩ := hdirectories.linked.rehomeAll hrehomed
  have hsecond : rehomed.Merged sources registry := by
    refine ⟨hlinked, fun index => ?_⟩
    rw [hentries]
    exact hdirectories.shows_entry hshows hsources index
  exact (hsecond.addReference hmerged).sort

end PageTree

end SchemaDocs
