import SchemaDocs.Proofs.Navigation.Shape

/-!
# When pages collide

Pages are merged exactly if no two of them describe one directory and every layout is sound, from
the one by directories to the one in which every page stands where it is to stand. The layouts
between these two count as well: pages are taken home one after the other, and a page can be refused
for another that has still to leave.
-/

namespace SchemaDocs.PageTree

variable {title directory : String} {files : FileSystem} {schema : Schema} {registry : Registry}
  {sources : List SourcePage}

/-- Pages that describe their directories are known by these. -/
theorem nodup_indexPages_iff (hsources : ∀ source ∈ sources, source.IsNamed) :
    ((indexPages sources).map SourcePage.id).Nodup ↔ ((indexPages sources).map SourcePage.directories).Nodup := by
  have hnames : ∀ way ∈ (indexPages sources).map SourcePage.directories, ∀ name ∈ way, IsEntryName name := by
    intro way hway
    obtain ⟨source, hsource, rfl⟩ := List.mem_map.mp hway
    exact (hsources source (List.mem_filter.mp hsource).1).directories_names
  rw [map_id_indexPages fun source hsource => (hsources source hsource).isInPlace]
  constructor
  · exact List.Nodup.of_map _
  · exact List.Nodup.map_on fun left hleft right hright => way_unique (hnames left hleft) (hnames right hright)

/-- The pages that are found can be merged with a schema exactly if each directory is described once
and no siblings share a name in any of the layouts in which some of the listed pages, up to any
place in their order, have been taken home. -/
theorem exists_merge_iff (title directory : String) (hfiles : files.root.IsNamed)
    (hregistry : Registry.build schema = .ok registry) :
    (∃ tree, merge title (Discovery.discover files directory) registry = .ok tree) ↔
      ((indexPages (Discovery.discover files directory)).map SourcePage.directories).Nodup ∧
        ∀ moved waiting, moved ++ waiting = listedPages (Discovery.discover files directory) →
          Apart (HasFolder (Discovery.discover files directory))
            (standing (Discovery.discover files directory) moved waiting) := by
  have hsources : ∀ source ∈ Discovery.discover files directory, source.IsNamed := fun _ =>
    Discovery.isNamed_of_mem_discover hfiles
  have hnamed := wellNamed_of_build hregistry
  rw [← nodup_indexPages_iff hsources]
  constructor
  · intro ⟨tree, hok⟩
    obtain ⟨hindex, hlayouts, -⟩ := merged_cases hsources hnamed hok
    exact ⟨hindex, hlayouts⟩
  · intro ⟨hindex, hlayouts⟩
    exact exists_merge title hsources hnamed hindex hlayouts

theorem exists_merge_iff_sample :
    ((∃ tree, merge "Docs" (Discovery.discover sampleFiles "p") (.ofEntries sampleSchema.entries) = .ok tree) ↔
      ((indexPages (Discovery.discover sampleFiles "p")).map SourcePage.directories).Nodup ∧
        ∀ moved waiting, moved ++ waiting = listedPages (Discovery.discover sampleFiles "p") →
          Apart (HasFolder (Discovery.discover sampleFiles "p"))
            (standing (Discovery.discover sampleFiles "p") moved waiting)) :=
  exists_merge_iff "Docs" "p" sampleFiles_named sampleSchema_registered

/-- A page that declares the folder of another page of its name, which is to leave that folder. -/
def chainFiles : FileSystem where
  root := .directory [
    ("p", .directory [
      ("a", .directory [("x.md", .file "---\nparent: b\n---\n".toUTF8)]),
      ("b", .directory [("x.md", .file "---\nparent: c\n---\n".toUTF8)]),
      ("c", .directory [("y.md", .file "".toUTF8)])])]

/-- Siblings can collide on the way where they do not in the end: the first page is refused because
the second has not left yet. In the other order both are taken home. -/
theorem collides_on_the_way :
    ((indexPages (Discovery.discover chainFiles "p")).map SourcePage.directories).Nodup ∧
      Apart (HasFolder (Discovery.discover chainFiles "p")) (directoryLayout (Discovery.discover chainFiles "p")) ∧
      Apart (HasFolder (Discovery.discover chainFiles "p")) (finalLayout (Discovery.discover chainFiles "p")) ∧
      merge "Docs" (Discovery.discover chainFiles "p") (.ofEntries sampleSchema.entries) = .error ⟨"b", "b/x"⟩ ∧
      (((new "Docs").placeAll [] (Discovery.discover chainFiles "p")).bind fun placed =>
        (Discovery.discover chainFiles "p").reverse.foldlM rehome placed).toOption.isSome := by
  refine ⟨by decide +kernel, by decide +kernel, by decide +kernel, ?_, by decide +kernel⟩
  decide +kernel

end SchemaDocs.PageTree
